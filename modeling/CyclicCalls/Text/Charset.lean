import CyclicCalls.Source.Encoding
import CyclicCalls.Text.Quoted
/-!
# Charsets

A charset encodes texts as bytes, perhaps not all of them. Most charsets go character by
character: a text has no encoding if one of its characters has none, and then the first stretch of
such characters is to blame.
-/

set_option autoImplicit false

namespace CyclicCalls.Text

open Source (Bytes)

/-- The characters that keep a text from being encoded, and where they stand. -/
structure EncodingError where
  charset : String
  reason : String
  position : Nat
  first : Char
  others : List Char
deriving DecidableEq, Repr

/-- Bytes for texts, as far as they have some. -/
structure Charset where
  encode : String → Except EncodingError Bytes

/-- A character by its number, in two, four or eight hexadecimal digits. -/
def numberEscape (c : Char) : List Char :=
  let pairs := fun (count : Nat) =>
    (List.range count).reverse.flatMap (fun place => hex2 (c.toNat >>> (8 * place)))
  if c.toNat < 0x100 then '\\' :: 'x' :: pairs 1
  else if c.toNat < 0x10000 then '\\' :: 'u' :: pairs 2
  else '\\' :: 'U' :: pairs 4

/-- The wording of a failure to encode a text. -/
def EncodingError.message (error : EncodingError) : String :=
  let start := toString error.position
  "'" ++ error.charset ++ "' codec can't encode " ++
    (if error.others.isEmpty then
      "character '" ++ String.ofList (numberEscape error.first) ++ "' in position " ++ start
    else
      "characters in position " ++ start ++ "-" ++
        toString (error.position + error.others.length)) ++
    ": " ++ error.reason

namespace Charset

section

variable (name reason : String) (bytes? : Char → Option Bytes)

/-- The bytes of characters that stand at a position of a text. -/
def encodeFrom (position : Nat) : List Char → Except EncodingError Bytes
  | [] => .ok []
  | c :: rest =>
    match bytes? c with
    | some bytes => (encodeFrom (position + 1) rest).map (bytes ++ ·)
    | none => .error {
        charset := name
        reason := reason
        position := position
        first := c
        others := rest.takeWhile (fun other => (bytes? other).isNone) }

/-- The charset that goes character by character, with what is said of a character that has no
bytes. -/
def byCharacter : Charset where
  encode text := encodeFrom name reason bytes? 0 text.toList

end

/-- The charset that has bytes for all characters. -/
def utf8 : Charset :=
  byCharacter "utf-8" "surrogates not allowed" (fun c => some (String.utf8EncodeChar c))

end Charset

end CyclicCalls.Text
