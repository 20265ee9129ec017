import CyclicCalls.Source.Encoding
import CyclicCalls.Source.Field
import CyclicCalls.Source.Token
/-!
# From characters to tokens

The scanner reads a source line by line. The blanks at the start of a line say
how deep it is indented; they are measured twice, with tab stops eight columns
and one column apart, and the two measures have to agree on every comparison.
Lines without tokens do not count, nor does the start of a line inside brackets.

The texts of replacement fields are scanned by the scanner itself, each between
round brackets. They are shorter than the source that holds them.
-/

set_option autoImplicit false

namespace CyclicCalls.Source.Lexer

/-- Where the scanner stands between two tokens. -/
structure State where
  /-- The current line. -/
  line : Nat
  /-- Whether a line starts here. -/
  lineStart : Bool := true
  /-- The indentations of the open blocks in both measures, the innermost first. -/
  indents : List (Nat × Nat) := []
  /-- The open brackets, the innermost first. -/
  brackets : List Char := []
deriving DecidableEq, Repr

/-- Tokens found, the state after them and the text that follows. -/
abbrev Step := List Token × State × List Char

/-! ## Starts of lines -/

/-- The two measures of the blanks at the start of a line, what follows them, and
the number of lines joined on the way. When lines are joined by backslashes, the
first nonzero column at a backslash stands for both measures. -/
def margin? (column short kept joined : Nat) : List Char → Option ((Nat × Nat) × List Char × Nat)
  | [] => some (if kept == 0 then (column, short) else (kept, kept), [], joined)
  | c :: rest =>
    if c == ' ' then margin? (column + 1) (short + 1) kept joined rest
    else if c == '\t' then margin? ((column / 8 + 1) * 8) (short + 1) kept joined rest
    else if c == '\x0c' then margin? 0 0 kept joined rest
    else if c == '\\' then
      match rest with
      | '\n' :: d :: tail =>
        margin? column short (if kept == 0 then column else kept) (joined + 1) (d :: tail)
      | _ => none
    else some (if kept == 0 then (column, short) else (kept, kept), c :: rest, joined)

/-- The innermost indentation. -/
def innermost (indents : List (Nat × Nat)) : Nat × Nat :=
  indents.headD (0, 0)

/-- Close the blocks that are indented deeper than the given column. -/
def outdent (column : Nat) : List (Nat × Nat) → List Token × List (Nat × Nat)
  | [] => ([], [])
  | indent :: outer =>
    if column < indent.1 then
      let (tokens, rest) := outdent column outer
      (.dedent :: tokens, rest)
    else ([], indent :: outer)

/-- The tokens for a line with the given indentation, and the blocks open after
them. -/
def indentation? (indents : List (Nat × Nat)) (measures : Nat × Nat) :
    Option (List Token × List (Nat × Nat)) :=
  if (innermost indents).1 < measures.1 then
    if (innermost indents).2 < measures.2 then some ([.indent], measures :: indents) else none
  else
    let (tokens, rest) := outdent measures.1 indents
    if innermost rest == measures then some (tokens, rest) else none

/-! ## Tokens within a line -/

/-- The bracket that an operator opens or closes. -/
def trackBracket? (brackets : List Char) (text : List Char) : Option (List Char) :=
  match text with
  | [c] =>
    if c == '(' || c == '[' || c == '{' then some (c :: brackets)
    else if c == ')' || c == ']' || c == '}' then
      match brackets with
      | opening :: outer => if Field.closes opening c then some outer else none
      | [] => none
    else some brackets
  | _ => some brackets

/-- An operator or a delimiter. -/
def mark? (state : State) (chars : List Char) : Option Step := do
  let found ← Token.marks.find? (fun text => text.toList.isPrefixOf chars)
  let brackets ← trackBracket? state.brackets found.toList
  pure ([.mark state.line found], { state with brackets := brackets }, chars.drop found.length)

/-- A name or a keyword. -/
def word? (state : State) (chars : List Char) : Option Step :=
  let word := chars.takeWhile isWordChar
  if isName word then
    some ([Token.ofWord state.line (String.ofList word)], state, chars.drop word.length)
  else none

/-- A number. -/
def number? (state : State) (chars : List Char) : Option Step := do
  let (imaginary, rest) ← Number.scan? chars
  pure ([.number state.line imaginary], state, rest)

/-- The token lists of fields, each scanned by `scanField`. -/
def fieldTokens? (scanField : Field.Slot → Option (List Token)) :
    List Field.Slot → Option (List (List Token))
  | [] => some []
  | slot :: slots => do
    let tokens ← scanField slot
    let others ← fieldTokens? scanField slots
    pure (tokens :: others)

/-- A text literal after its opening quote. -/
def literal? (scanField : Field.Slot → Option (List Token)) (state : State)
    (style : Literal.Style) (quote : Char) (chars : List Char) : Option Step := do
  let (body, rest) ← Literal.body? quote chars
  let last := state.line + body.count '\n'
  let fields ←
    if style.formatted then do
      let slots ← Field.scan? style.raw last body
      fieldTokens? scanField slots
    else if Literal.bodyOk style body then some []
    else none
  pure ([.text state.line style.binary fields], { state with line := last }, rest)

/-- The end of a line: a token outside brackets. -/
def lineEnd (state : State) (rest : List Char) : Step :=
  (if state.brackets.isEmpty then [.newline] else [],
    { state with line := state.line + 1, lineStart := true }, rest)

/-- Leave out a comment. -/
def skipComment : List Char → List Char
  | '#' :: rest => rest.dropWhile (· != '\n')
  | chars => chars

/-- Whether a number starts here. -/
def startsNumber : List Char → Bool
  | '.' :: d :: _ => d.isDigit
  | d :: _ => d.isDigit
  | [] => false

/-- The next token within a line, whose blanks are left out. -/
def token? (scanField : Field.Slot → Option (List Token)) (state : State) (chars : List Char) :
    Option Step :=
  match skipComment chars with
  | [] => some ([], state, [])
  | '\n' :: rest => some (lineEnd state rest)
  | '\\' :: rest =>
    match rest with
    | '\n' :: c :: rest => some ([], { state with line := state.line + 1 }, c :: rest)
    | _ => none
  | c :: rest =>
    match Literal.opening? (c :: rest) with
    | some (style, quote, tail) => literal? scanField state style quote tail
    | none =>
      if isWordStart c then word? state (c :: rest)
      else if startsNumber (c :: rest) then number? state (c :: rest)
      else mark? state (c :: rest)

/-- The next tokens. At the start of a line the tokens of its indentation come
first, unless the line has no tokens or stands inside brackets. -/
def step? (scanField : Field.Slot → Option (List Token)) (state : State) (chars : List Char) :
    Option Step :=
  if state.lineStart then do
    let (measures, rest, joined) ← margin? 0 0 0 0 chars
    let inside := { state with line := state.line + joined, lineStart := false }
    if rest.head? == some '#' || rest.head? == some '\n' then
      pure ([], { state with line := inside.line + 1 }, (rest.dropWhile (· != '\n')).drop 1)
    else if state.brackets.isEmpty then do
      let (tokens, indents) ← indentation? state.indents measures
      let (found, next, tail) ← token? scanField { inside with indents := indents } rest
      pure (tokens ++ found, next, tail)
    else token? scanField inside rest
  else token? scanField state (chars.dropWhile isBlank)

/-- The tokens from a state on. At the end every open block is closed, and no
bracket may be open. -/
def tokensFrom? (scanField : Field.Slot → Option (List Token)) (state : State)
    (chars : List Char) : Option (List Token) :=
  match chars with
  | [] =>
    if state.brackets.isEmpty then some (state.indents.map (fun _ => .dedent) ++ [.stop]) else none
  | c :: rest =>
    match step? scanField state (c :: rest) with
    | none => none
    | some (tokens, next, tail) =>
      if tail.length < (c :: rest).length then
        (tokensFrom? scanField next tail).map (tokens ++ ·)
      else none
termination_by chars.length
decreasing_by assumption

/-- The tokens of a text that starts on the given line and ends with a line
end. -/
def scan? (line : Nat) (chars : List Char) : Option (List Token) :=
  tokensFrom?
    (fun slot =>
      if slot.text.length + 3 < chars.length then
        scan? slot.line ('(' :: slot.text ++ [')', '\n'])
      else none)
    { line := line } chars
termination_by chars.length
decreasing_by simp; omega

end CyclicCalls.Source.Lexer
