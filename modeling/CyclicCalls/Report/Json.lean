import CyclicCalls.Text.Quoted
import CyclicCalls.Text.Split
/-!
# Structured report values

A small value type for the structured report and its layout: every member of an
array or an object stands on a line of its own, indented by two blanks for each
level, and an empty array is `[]`. The written text is plain ASCII. A character
outside the printable ASCII range is an escape of four hexadecimal digits, and
one beyond the basic plane is a pair of them.
-/

set_option autoImplicit false

namespace CyclicCalls.Report

/-- The values that a report is made of. -/
inductive Json where
  | number (value : Nat)
  | text (value : String)
  | array (items : List Json)
  | object (fields : List (String × Json))

namespace Json

/-- Four hexadecimal digits after a backslash and a `u`. -/
def unitEscape (n : Nat) : List Char :=
  '\\' :: 'u' :: (Text.hex2 (n / 256) ++ Text.hex2 n)

/-- One character of a written text. -/
def writtenChar (c : Char) : List Char :=
  if c == '"' then ['\\', '"']
  else if c == '\\' then ['\\', '\\']
  else if c == '\n' then ['\\', 'n']
  else if c == '\r' then ['\\', 'r']
  else if c == '\t' then ['\\', 't']
  else if c.toNat == 8 then ['\\', 'b']
  else if c.toNat == 12 then ['\\', 'f']
  else if 0x20 ≤ c.toNat && c.toNat ≤ 0x7e then [c]
  else if c.toNat < 0x10000 then unitEscape c.toNat
  else
    let offset := c.toNat - 0x10000
    unitEscape (0xd800 + offset / 0x400) ++ unitEscape (0xdc00 + offset % 0x400)

/-- A text between double quotes. -/
def writtenText (text : String) : String :=
  String.ofList ('"' :: text.toList.flatMap writtenChar ++ ['"'])

/-- The start of a line at a level. -/
def newLine (level : Nat) : String :=
  "\n" ++ String.ofList (List.replicate (2 * level) ' ')

mutual

/-- The written form of a value whose first line stands at a level. -/
def writeAt (level : Nat) : Json → String
  | .number value => toString value
  | .text value => writtenText value
  | .array [] => "[]"
  | .array (item :: items) =>
    "[" ++ newLine (level + 1) ++
      Text.join ("," ++ newLine (level + 1)) (writeItems (level + 1) (item :: items)) ++
      newLine level ++ "]"
  | .object [] => "\x7b\x7d"
  | .object (field :: fields) =>
    "\x7b" ++ newLine (level + 1) ++
      Text.join ("," ++ newLine (level + 1)) (writeFields (level + 1) (field :: fields)) ++
      newLine level ++ "\x7d"

/-- The written forms of the members of an array. -/
def writeItems (level : Nat) : List Json → List String
  | [] => []
  | item :: items => writeAt level item :: writeItems level items

/-- The written forms of the members of an object. -/
def writeFields (level : Nat) : List (String × Json) → List String
  | [] => []
  | (name, value) :: fields =>
    (writtenText name ++ ": " ++ writeAt level value) :: writeFields level fields

end

/-- The written form of a value. -/
def write (value : Json) : String :=
  writeAt 0 value

end Json

end CyclicCalls.Report
