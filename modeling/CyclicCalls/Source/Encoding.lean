import CyclicCalls.Text.Split
/-!
# Source bytes as characters

A source file is bytes. This module gives the characters that the scanner reads:

* line ends are line feeds, whatever they were, and the text ends with one;
* a byte order mark at the start is dropped;
* a comment in the first two lines may name the encoding, the second line only
  when the first holds nothing but blanks or a comment;
* without such a name the text is UTF-8, and a byte that does not decode is kept
  as the null character. No accepted source holds that character otherwise, and
  the scanner accepts it in comments alone;
* under a name other than UTF-8's own the whole text has to decode.

A null byte, an encoding that is not known, and a mark followed by the name of
another encoding are refused.
-/

set_option autoImplicit false

namespace CyclicCalls.Source

/-- The bytes of a file. -/
abbrev Bytes := List UInt8

/-! ## Line ends -/

/-- A carriage return, alone or before a line feed, becomes a line feed. -/
def unifyLineEnds {α : Type} [BEq α] (cr lf : α) : List α → List α
  | [] => []
  | [a] => if a == cr then [lf] else [a]
  | a :: b :: rest =>
    if a == cr then
      if b == lf then lf :: unifyLineEnds cr lf rest
      else lf :: unifyLineEnds cr lf (b :: rest)
    else a :: unifyLineEnds cr lf (b :: rest)

/-- The text with unified line ends and a final one. A text that ends with a
carriage return and a line feed gets an empty line more. -/
def terminateLines {α : Type} [BEq α] (cr lf : α) (text : List α) : List α :=
  let unified := unifyLineEnds cr lf text
  match text.reverse, unified.reverse with
  | a :: b :: _, _ => if (a == lf && b == cr) || (a != lf && a != cr) then unified ++ [lf] else unified
  | _, a :: _ => if a == lf then unified else unified ++ [lf]
  | _, [] => [lf]

/-! ## Decoding -/

/-- A byte in the middle of a character. -/
def isTail (b : UInt8) : Bool :=
  0x80 ≤ b && b < 0xc0

/-- The low bits of a byte in the middle of a character. -/
def tailBits (b : UInt8) : Nat :=
  b.toNat % 64

/-- The first character of UTF-8 text, and what follows it. Overlong forms,
surrogates and code points beyond the last plane do not decode. -/
def decodeFirst? : Bytes → Option (Char × Bytes)
  | [] => none
  | a :: rest =>
    let n := a.toNat
    if n < 0x80 then some (Char.ofNat n, rest)
    else if n < 0xc2 then none
    else if n < 0xe0 then
      match rest with
      | b :: rest => if isTail b then some (Char.ofNat (n % 32 * 64 + tailBits b), rest) else none
      | _ => none
    else if n < 0xf0 then
      match rest with
      | b :: c :: rest =>
        let code := n % 16 * 4096 + tailBits b * 64 + tailBits c
        if isTail b && isTail c && 0x800 ≤ code && (code < 0xd800 || 0xdfff < code) then
          some (Char.ofNat code, rest)
        else none
      | _ => none
    else if n < 0xf5 then
      match rest with
      | b :: c :: d :: rest =>
        let code := n % 8 * 262144 + tailBits b * 4096 + tailBits c * 64 + tailBits d
        if isTail b && isTail c && isTail d && 0x10000 ≤ code && code ≤ 0x10ffff then
          some (Char.ofNat code, rest)
        else none
      | _ => none
    else none

/-- The characters of UTF-8 text, with the null character for each byte that
does not decode. -/
def decodeLoosely (bytes : Bytes) : List Char :=
  match bytes with
  | [] => []
  | a :: rest =>
    match decodeFirst? (a :: rest) with
    | some (c, tail) =>
      if tail.length < (a :: rest).length then c :: decodeLoosely tail
      else Char.ofNat 0 :: decodeLoosely rest
    | none => Char.ofNat 0 :: decodeLoosely rest
termination_by bytes.length
decreasing_by
  · assumption
  · exact Nat.lt_succ_self _
  · exact Nat.lt_succ_self _

/-- The characters of a text that decodes as a whole. -/
def wholly (chars : List Char) : Option (List Char) :=
  if chars.contains (Char.ofNat 0) then none else some chars

/-- The encodings that a source may name. -/
inductive Encoding where
  | utf8
  | ascii
  | latin1
deriving DecidableEq, Repr

/-- The characters of a text in a given encoding, if all of it decodes. -/
def Encoding.decode? : Encoding → Bytes → Option (List Char)
  | .utf8, bytes => wholly (decodeLoosely bytes)
  | .ascii, bytes => if bytes.all (· < 0x80) then some (decodeLoosely bytes) else none
  | .latin1, bytes => some (bytes.map (fun b => Char.ofNat b.toNat))

/-! ## Names of encodings -/

/-- Lower case, with underscores for dashes. -/
def dashed (name : List Char) : List Char :=
  name.map (fun c => if c == '_' then '-' else c.toLower)

/-- The spellings of UTF-8 under which a text is read as if no encoding were
named. -/
def isPlainUtf8 (name : List Char) : Bool :=
  let spelled := dashed (name.take 12)
  spelled == "utf-8".toList || "utf-8-".toList.isPrefixOf spelled

/-- The spellings of Latin-1 that may go on after the name. -/
def isPlainLatin1 (name : List Char) : Bool :=
  let spelled := dashed (name.take 12)
  ["latin-1", "iso-8859-1", "iso-latin-1"].any (fun known =>
    spelled == known.toList || (known ++ "-").toList.isPrefixOf spelled)

/-- Runs of characters other than letters, digits and dots become single
underscores between the rest. -/
def underscored : List Char → List Char
  | [] => []
  | c :: rest =>
    if c.isAlphanum || c == '.' then c.toLower :: underscored rest
    else
      match underscored rest with
      | [] => []
      | d :: tail => if d == '_' then d :: tail else '_' :: d :: tail

/-- The name of an encoding without leading underscores. -/
def canonicalName (name : List Char) : String :=
  String.ofList ((underscored name).dropWhile (· == '_'))

/-- The encoding that goes by a name. -/
def Encoding.ofName? (name : List Char) : Option Encoding :=
  let canonical := canonicalName name
  if ["utf_8", "u8", "utf", "utf8", "utf8_ucs2", "utf8_ucs4", "cp65001"].contains canonical then
    some .utf8
  else if ["ascii", "646", "ansi_x3.4_1968", "ansi_x3_4_1968", "ansi_x3.4_1986", "cp367", "csascii",
      "ibm367", "iso646_us", "iso_646.irv_1991", "iso_ir_6", "us", "us_ascii"].contains canonical then
    some .ascii
  else if ["latin_1", "8859", "cp819", "csisolatin1", "ibm819", "iso8859", "iso8859_1",
      "iso_8859_1", "iso_8859_1_1987", "iso_ir_100", "l1", "latin", "latin1"].contains canonical then
    some .latin1
  else none

/-! ## The comment that names the encoding -/

/-- Blanks within a line. -/
def isBlank (c : Char) : Bool :=
  c == ' ' || c == '\t' || c == '\x0c'

/-- Characters in the name of an encoding. -/
def isEncodingChar (c : Char) : Bool :=
  c.isAlphanum || c == '-' || c == '_' || c == '.'

/-- The name after the first `coding:` or `coding=` that has one. -/
def codingName? : List Char → Option (List Char)
  | [] => none
  | c :: rest =>
    match Text.after? "coding".toList (c :: rest) with
    | some (mark :: tail) =>
      let name := (tail.dropWhile (fun c => c == ' ' || c == '\t')).takeWhile isEncodingChar
      if (mark == ':' || mark == '=') && !name.isEmpty then some name else codingName? rest
    | _ => codingName? rest

/-- The encoding that a line names in a comment that stands alone. -/
def lineCoding? (line : List Char) : Option (List Char) :=
  match line.dropWhile isBlank with
  | '#' :: comment => codingName? comment
  | _ => none

/-- Whether a line holds nothing but blanks or a comment. -/
def isIdleLine (line : List Char) : Bool :=
  match line.dropWhile isBlank with
  | [] => true
  | c :: _ => c == '#'

/-- The encoding that the first two lines name. The bytes are taken one by one
as characters, which does no harm to ASCII text. -/
def declaredCoding? (bytes : Bytes) : Option (List Char) :=
  let chars := bytes.map (fun b => Char.ofNat b.toNat)
  let first := chars.takeWhile (· != '\n')
  let second := ((chars.dropWhile (· != '\n')).drop 1).takeWhile (· != '\n')
  match lineCoding? first with
  | some name => some name
  | none => if isIdleLine first then lineCoding? second else none

/-! ## Reading a source -/

/-- The characters of a source after the byte order mark, if one stood there. -/
def decodeBody? (marked : Bool) (bytes : Bytes) : Option (List Char) :=
  match declaredCoding? bytes with
  | none => some (decodeLoosely bytes)
  | some name =>
    if isPlainUtf8 name then some (decodeLoosely bytes)
    else if marked then none
    else if isPlainLatin1 name then Encoding.latin1.decode? bytes
    else
      match Encoding.ofName? name with
      | some encoding => encoding.decode? bytes
      | none => none

/-- The characters of a source file, or nothing when it cannot be decoded. -/
def decodeSource? (bytes : Bytes) : Option (List Char) :=
  if bytes.contains 0 then none
  else
    match terminateLines 0x0d 0x0a bytes with
    | 0xef :: 0xbb :: 0xbf :: body => decodeBody? true body
    | body => decodeBody? false body

/-- The characters of a source that is given as text. -/
def ofText? (text : String) : Option (List Char) :=
  if text.toList.contains (Char.ofNat 0) then none
  else some (terminateLines '\r' '\n' text.toList)

end CyclicCalls.Source
