import CyclicCalls.Source.Number
/-!
# Text literals

A text literal is a few letters that say how it is read, and a body between
quotes. One quote on each side keeps the body on a line; three let it run over
several. A backslash keeps the next character from ending the body.

The body of a literal that is not raw may hold escapes, and some of them have to
be complete. A binary literal holds ASCII only. Bytes of the source that did not
decode are refused in every literal.
-/

set_option autoImplicit false

namespace CyclicCalls.Source.Literal

/-- How a literal is read. -/
structure Style where
  raw : Bool := false
  binary : Bool := false
  formatted : Bool := false
deriving DecidableEq, Repr

/-- The two quotes. -/
def isQuote (c : Char) : Bool :=
  c == '\'' || c == '"'

/-- The style that a word before a quote stands for. -/
def Style.ofWord? (word : List Char) : Option Style :=
  match word.map Char.toLower with
  | [] => some {}
  | ['u'] => some {}
  | ['r'] => some { raw := true }
  | ['b'] => some { binary := true }
  | ['f'] => some { formatted := true }
  | ['b', 'r'] => some { raw := true, binary := true }
  | ['r', 'b'] => some { raw := true, binary := true }
  | ['f', 'r'] => some { raw := true, formatted := true }
  | ['r', 'f'] => some { raw := true, formatted := true }
  | _ => none

/-- The style, the quote and what follows it, when the text starts with a
literal. -/
def opening? (chars : List Char) : Option (Style × Char × List Char) :=
  let word := chars.takeWhile Char.isAlpha
  match chars.drop word.length with
  | c :: rest =>
    if isQuote c then (Style.ofWord? word).map (fun style => (style, c, rest)) else none
  | [] => none

/-! ## Bodies -/

/-- The body up to the next quote on the line, and what follows the quote. -/
def shortBody? (quote : Char) : List Char → Option (List Char × List Char)
  | [] => none
  | c :: rest =>
    if c == quote then some ([], rest)
    else if c == '\n' then none
    else if c == '\\' then
      match rest with
      | d :: rest => (shortBody? quote rest).map (fun found => (c :: d :: found.1, found.2))
      | [] => none
    else (shortBody? quote rest).map (fun found => (c :: found.1, found.2))

/-- The body up to the next three quotes in a row, and what follows them. -/
def longBody? (quote : Char) : List Char → Option (List Char × List Char)
  | [] => none
  | c :: rest =>
    if c == quote && (rest.take 2 == [quote, quote]) then some ([], rest.drop 2)
    else if c == '\\' then
      match rest with
      | d :: rest => (longBody? quote rest).map (fun found => (c :: d :: found.1, found.2))
      | [] => none
    else (longBody? quote rest).map (fun found => (c :: found.1, found.2))

/-- The body after an opening quote, and what follows its closing quotes. -/
def body? (quote : Char) (chars : List Char) : Option (List Char × List Char) :=
  if chars.take 2 == [quote, quote] then longBody? quote (chars.drop 2)
  else shortBody? quote chars

/-! ## Escapes -/

/-- Whether a text starts with `count` digits of base sixteen. -/
def hasHex (count : Nat) (chars : List Char) : Bool :=
  (chars.take count).length == count && (chars.take count).all Number.isHexDigit

/-- The value of a digit of base sixteen. -/
def hexValue (c : Char) : Nat :=
  if c.isDigit then c.toNat - 48 else c.toLower.toNat - 87

/-- The number that digits of base sixteen denote. -/
def hexNumber (digits : List Char) : Nat :=
  digits.foldl (fun total c => 16 * total + hexValue c) 0

/-- Whether a text starts with a name in curly brackets. -/
def hasBracedName (chars : List Char) : Bool :=
  match chars with
  | '{' :: rest =>
    let name := rest.takeWhile (· != '}')
    !name.isEmpty && (rest.drop name.length).head? == some '}'
  | _ => false

/-- Whether the text after a backslash completes an escape of a literal that is
not binary. -/
def escapeOk : List Char → Bool
  | 'x' :: rest => hasHex 2 rest
  | 'u' :: rest => hasHex 4 rest
  | 'U' :: rest => hasHex 8 rest && hexNumber (rest.take 8) ≤ 0x10ffff
  | 'N' :: rest => hasBracedName rest
  | _ => true

/-- Whether the text after a backslash completes an escape of a binary literal. -/
def binaryEscapeOk : List Char → Bool
  | 'x' :: rest => hasHex 2 rest
  | _ => true

/-- Whether every escape of a body is complete. -/
def escapesOk (ok : List Char → Bool) : List Char → Bool
  | [] => true
  | c :: rest =>
    if c == '\\' then
      ok rest && match rest with
        | _ :: rest => escapesOk ok rest
        | [] => true
    else escapesOk ok rest

/-- Whether the body of a literal without fields can be read. -/
def bodyOk (style : Style) (body : List Char) : Bool :=
  !body.contains (Char.ofNat 0) &&
    if style.binary then
      body.all (fun c => c.toNat < 0x80) && (style.raw || escapesOk binaryEscapeOk body)
    else style.raw || escapesOk escapeOk body

end CyclicCalls.Source.Literal
