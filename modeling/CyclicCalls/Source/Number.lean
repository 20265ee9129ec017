import CyclicCalls.Source.Name
/-!
# Numbers

The longest number at the start of a text: integers in four bases, decimal
fractions with exponents, and imaginary numbers. Single underscores may stand
between digits. A number may be followed directly by one of a few keywords, and
by no other letter or digit.
-/

set_option autoImplicit false

namespace CyclicCalls.Source.Number

/-- Digits with single underscores between them, after a first digit. Nothing
comes back when an underscore is not followed by a digit. -/
def tail? (isDigit : Char → Bool) : List Char → Option (List Char)
  | [] => some []
  | c :: rest =>
    if c == '_' then
      match rest with
      | d :: rest => if isDigit d then tail? isDigit rest else none
      | [] => none
    else if isDigit c then tail? isDigit rest
    else some (c :: rest)

/-- The digits after the letter of a base. -/
def based? (isDigit : Char → Bool) : List Char → Option (List Char)
  | '_' :: d :: rest => if isDigit d then tail? isDigit rest else none
  | d :: rest => if isDigit d then tail? isDigit rest else none
  | [] => none

/-- Whether the text starts with the given word and no longer one. -/
def startsWithWord (word : String) (chars : List Char) : Bool :=
  word.toList.isPrefixOf chars && !((chars.drop word.length).head?.any isWordChar)

/-- Whether a number may end before the given text. -/
def endsBefore (chars : List Char) : Bool :=
  ["and", "else", "for", "or", "not"].any (fun word => startsWithWord word chars) ||
    ["if", "in", "is"].any (fun word => word.toList.isPrefixOf chars) ||
    !chars.head?.any isWordChar

/-- The end of a number that may be imaginary: whether it is, and what follows. -/
def suffix? : List Char → Option (Bool × List Char)
  | c :: rest =>
    if c == 'j' || c == 'J' then
      if endsBefore rest then some (true, rest) else none
    else if endsBefore (c :: rest) then some (false, c :: rest) else none
  | [] => some (false, [])

/-- An exponent, if there is one, and the end of the number. A letter `e` that is
followed by neither a digit nor a sign may start a keyword. -/
def exponent? : List Char → Option (Bool × List Char)
  | c :: rest =>
    if c == 'e' || c == 'E' then
      match rest with
      | sign :: tail =>
        if sign == '+' || sign == '-' then
          match tail with
          | d :: tail => if d.isDigit then (tail? Char.isDigit tail).bind suffix? else none
          | [] => none
        else if sign.isDigit then (tail? Char.isDigit tail).bind suffix?
        else if endsBefore (c :: rest) then some (false, c :: rest) else none
      | [] => if endsBefore (c :: rest) then some (false, c :: rest) else none
    else suffix? (c :: rest)
  | [] => some (false, [])

/-- What follows the point of a fraction. -/
def fraction? : List Char → Option (Bool × List Char)
  | d :: rest =>
    if d.isDigit then (tail? Char.isDigit rest).bind exponent? else exponent? (d :: rest)
  | [] => some (false, [])

/-- Zeros after a leading zero, with single underscores before digits. -/
def zeros? : List Char → Option (List Char)
  | [] => some []
  | c :: rest =>
    if c == '_' then
      match rest with
      | d :: tail =>
        if d == '0' then zeros? tail else if d.isDigit then some (d :: tail) else none
      | [] => none
    else if c == '0' then zeros? rest
    else some (c :: rest)

/-- What follows the whole part: a fraction, an exponent, or the end. A whole
number other than zero does not start with a zero. -/
def afterWhole? (zeroLed : Bool) : List Char → Option (Bool × List Char)
  | c :: rest =>
    if c == '.' then fraction? rest
    else if c == 'e' || c == 'E' || c == 'j' || c == 'J' then exponent? (c :: rest)
    else if zeroLed then none
    else if endsBefore (c :: rest) then some (false, c :: rest) else none
  | [] => if zeroLed then none else some (false, [])

/-- The largest number of digits that a whole decimal number may have. -/
def maxDigits : Nat := 4300

/-- A decimal number: its digits are counted when it is whole. -/
def decimal? (chars : List Char) : Option (Bool × List Char) := do
  let result ← match chars with
    | '0' :: rest => do
      match ← zeros? rest with
      | d :: tail =>
        if d.isDigit then (tail? Char.isDigit tail).bind (afterWhole? true)
        else afterWhole? false (d :: tail)
      | [] => afterWhole? false []
    | _ :: rest => (tail? Char.isDigit rest).bind (afterWhole? false)
    | [] => none
  let taken := chars.take (chars.length - result.2.length)
  if taken.all (fun c => c.isDigit || c == '_') && maxDigits < (taken.filter Char.isDigit).length then
    none
  else some result

/-- Digits of base sixteen. -/
def isHexDigit (c : Char) : Bool :=
  c.isDigit || ('a' ≤ c && c ≤ 'f') || ('A' ≤ c && c ≤ 'F')

/-- Digits of base eight. -/
def isOctalDigit (c : Char) : Bool :=
  '0' ≤ c && c ≤ '7'

/-- Digits of base two. -/
def isBinaryDigit (c : Char) : Bool :=
  c == '0' || c == '1'

/-- A whole number with a base letter. -/
def whole? (isDigit : Char → Bool) (chars : List Char) : Option (Bool × List Char) :=
  (based? isDigit chars).bind (fun rest => if endsBefore rest then some (false, rest) else none)

/-- The number at the start of a text, which starts with a digit or with a point
before a digit: whether it is imaginary, and what follows it. -/
def scan? : List Char → Option (Bool × List Char)
  | '.' :: rest => fraction? rest
  | '0' :: letter :: rest =>
    if letter == 'x' || letter == 'X' then whole? isHexDigit rest
    else if letter == 'o' || letter == 'O' then whole? isOctalDigit rest
    else if letter == 'b' || letter == 'B' then whole? isBinaryDigit rest
    else decimal? ('0' :: letter :: rest)
  | chars => decimal? chars

end CyclicCalls.Source.Number
