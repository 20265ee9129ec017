import CyclicCalls.Source.Literal
/-!
# Replacement fields

The body of a formatted literal is text with replacement fields in curly
brackets. A field is the text of an expression, then an optional `=`, an optional
conversion after `!`, and an optional format after `:`. A format may hold fields
of its own, and theirs no further ones. Outside a format, doubled brackets stand
for single ones.

The text of a field ends at the first `!`, `:`, `=` or closing bracket outside
quotes and inner brackets that is not part of a comparison. It holds neither a
backslash nor a comment, and it is not blank.

`Field.scan?` gives the texts of all fields with the line on which they start,
those of a format after the field it belongs to.
-/

set_option autoImplicit false

namespace CyclicCalls.Source.Field

/-- The text of a field with the line on which it starts. -/
structure Slot where
  line : Nat
  text : List Char
deriving DecidableEq, Repr

/-- Whether two brackets belong together. -/
def closes (opening closing : Char) : Bool :=
  (opening == '(' && closing == ')') || (opening == '[' && closing == ']') ||
    (opening == '{' && closing == '}')

/-- The quotes inside which a character stands: one or three of a kind. -/
structure Quotes where
  quote : Char
  long : Bool
deriving DecidableEq, Repr

/-- Put characters in front of the text found. -/
def prepend (chars : List Char) : Option (List Char × List Char) → Option (List Char × List Char)
  | some (text, rest) => some (chars ++ text, rest)
  | none => none

/-- The text of a field up to the character that ends it, and what follows from
that character on. -/
def text? (within : Option Quotes) (brackets : List Char) (chars : List Char) :
    Option (List Char × List Char) :=
  match chars with
  | [] => none
  | c :: rest =>
    if c == '\\' then none
    else
      match within with
      | some quotes =>
        if c == quotes.quote then
          if quotes.long then
            if rest.take 2 == [c, c] then prepend [c, c, c] (text? none brackets (rest.drop 2))
            else prepend [c] (text? within brackets rest)
          else prepend [c] (text? none brackets rest)
        else prepend [c] (text? within brackets rest)
      | none =>
        if Literal.isQuote c then
          if rest.take 2 == [c, c] then
            prepend [c, c, c] (text? (some ⟨c, true⟩) brackets (rest.drop 2))
          else prepend [c] (text? (some ⟨c, false⟩) brackets rest)
        else if c == '(' || c == '[' || c == '{' then
          prepend [c] (text? none (c :: brackets) rest)
        else if c == '#' then none
        else if brackets.isEmpty && ['!', ':', '}', '=', '>', '<'].contains c then
          if ['!', '=', '<', '>'].contains c && rest.head? == some '=' then
            prepend [c, '='] (text? none brackets (rest.drop 1))
          else if c == '>' || c == '<' then prepend [c] (text? none brackets rest)
          else some ([], c :: rest)
        else if c == ')' || c == ']' || c == '}' then
          match brackets with
          | opening :: outer =>
            if closes opening c then prepend [c] (text? none outer rest) else none
          | [] => none
        else prepend [c] (text? none brackets rest)
termination_by chars.length
decreasing_by all_goals (simp only [List.length_cons, List.length_drop]; omega)

/-- Blanks inside a field. -/
def isBlank (c : Char) : Bool :=
  c == ' ' || c == '\t' || c == '\n' || c == '\x0c'

/-- Blanks after the `=` of a field. -/
def isSpace (c : Char) : Bool :=
  isBlank c || c == '\r' || c == '\x0b'

/-- What follows the `=` after the text of a field, if there is one. -/
def afterEcho : List Char → List Char
  | '=' :: rest => rest.dropWhile isSpace
  | chars => chars

/-- What follows the conversion of a field, if it has one. -/
def afterConversion? : List Char → Option (List Char)
  | '!' :: c :: rest => if c == 's' || c == 'r' || c == 'a' then some rest else none
  | ['!'] => none
  | chars => some chars

/-- The length of the escape for a character by name, after the backslash. -/
def namedEscapeLength (chars : List Char) : Nat :=
  (chars.takeWhile (· != '}')).length + 1

/-- The slots of a body from the given text on. Inside a format the slots end
before the closing bracket. The line of a slot is counted back from the last line
of the body. -/
def slots? (raw : Bool) (lastLine : Nat) (level : Nat) (chars : List Char) :
    Option (List Slot × List Char) :=
  match chars with
  | [] => some ([], [])
  | c :: rest =>
    if c == '\\' && !raw && !rest.head?.any (fun d => d == '{' || d == '}') then
      if !Literal.escapeOk rest then none
      else
        let length := if rest.head? == some 'N' then namedEscapeLength rest else 1
        slots? raw lastLine level (rest.drop length)
    else if c == '{' then
      if level == 0 && rest.head? == some '{' then slots? raw lastLine level (rest.drop 1)
      else if 2 ≤ level then none
      else
        match text? none [] rest with
        | none => none
        | some (text, tail) =>
          if text.all isBlank then none
          else
            match afterConversion? (afterEcho tail) with
            | some (':' :: format) =>
              if format.length < (c :: rest).length then
                match slots? raw lastLine (level + 1) format with
                | some (inner, '}' :: after) =>
                  if after.length < (c :: rest).length then
                    match slots? raw lastLine level after with
                    | some (others, final) =>
                      some (⟨lastLine - rest.count '\n', text⟩ :: inner ++ others, final)
                    | none => none
                  else none
                | _ => none
              else none
            | some ('}' :: after) =>
              if after.length < (c :: rest).length then
                match slots? raw lastLine level after with
                | some (others, final) =>
                  some (⟨lastLine - rest.count '\n', text⟩ :: others, final)
                | none => none
              else none
            | _ => none
    else if c == '}' then
      if level == 0 then
        if rest.head? == some '}' then slots? raw lastLine level (rest.drop 1) else none
      else some ([], c :: rest)
    else slots? raw lastLine level rest
termination_by chars.length
decreasing_by all_goals (simp only [List.length_cons, List.length_drop] at *; omega)

/-- The slots of the body of a formatted literal that ends on the given line. -/
def scan? (raw : Bool) (lastLine : Nat) (body : List Char) : Option (List Slot) :=
  if body.contains (Char.ofNat 0) then none
  else (slots? raw lastLine 0 body).map (·.1)

end CyclicCalls.Source.Field
