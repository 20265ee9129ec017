/-!
# Quoted text

The form in which messages show a piece of text: between quotes, with the
characters that would not show as themselves written as escapes. Single quotes
are used unless the text holds a single quote and no double quote.
-/

set_option autoImplicit false

namespace CyclicCalls.Text

/-- One hexadecimal digit, in lower case. -/
def hexDigit (n : Nat) : Char :=
  if n < 10 then Char.ofNat (48 + n) else Char.ofNat (87 + n)

/-- The last two hexadecimal digits of a number. -/
def hex2 (n : Nat) : List Char :=
  [hexDigit (n / 16 % 16), hexDigit (n % 16)]

/-- Control characters, and the blanks of the second control block, do not show
as themselves. -/
def isHidden (c : Char) : Bool :=
  c.toNat < 0x20 || (0x7f ≤ c.toNat && c.toNat ≤ 0xa0) || c.toNat == 0xad

/-- One character between quotes of kind `quote`. -/
def quotedChar (quote c : Char) : List Char :=
  if c == '\\' || c == quote then ['\\', c]
  else if c == '\n' then ['\\', 'n']
  else if c == '\r' then ['\\', 'r']
  else if c == '\t' then ['\\', 't']
  else if isHidden c then '\\' :: 'x' :: hex2 c.toNat
  else [c]

/-- The quote that surrounds a text: double exactly when the text holds a single
quote and no double one. -/
def quoteFor (chars : List Char) : Char :=
  if chars.contains '\'' && !chars.contains '"' then '"' else '\''

/-- The text between quotes. -/
def quoted (text : String) : String :=
  let quote := quoteFor text.toList
  String.ofList (quote :: text.toList.flatMap (quotedChar quote) ++ [quote])

end CyclicCalls.Text
