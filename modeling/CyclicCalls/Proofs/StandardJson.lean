import CyclicCalls.Text.Split
import Mathlib.Algebra.Field.Rat
/-!
# Reading JSON

A reader for JSON texts, after the grammar of the format: blanks may stand between all tokens;
a number may have a sign, a fraction and an exponent; a character of a text stands for itself or
is escaped, and one beyond the basic plane may be escaped as a pair of surrogates. Nothing here
knows how reports are laid out.

With each function stand the lemmas that say what it reads, for a text with something after it.
-/

set_option autoImplicit false

namespace CyclicCalls.StandardJson

/-- What a JSON text stands for. -/
inductive Value where
  | null
  | boolean (value : Bool)
  | number (value : Rat)
  | text (value : String)
  | array (items : List Value)
  | object (fields : List (String × Value))

/-- Blanks between tokens. -/
def isBlank (c : Char) : Bool :=
  c == ' ' || c == '\t' || c == '\n' || c == '\r'

/-- What follows the blanks at the start. -/
def skipBlanks (chars : List Char) : List Char :=
  chars.dropWhile isBlank

/-! ## Texts -/

/-- The value of a hexadecimal digit. -/
def hexValue? (c : Char) : Option Nat :=
  if c.isDigit then some (c.toNat - 48)
  else if 'a' ≤ c ∧ c ≤ 'f' then some (c.toNat - 87)
  else if 'A' ≤ c ∧ c ≤ 'F' then some (c.toNat - 55)
  else none

/-- The value of four hexadecimal digits. -/
def unit? (a b c d : Char) : Option Nat := do
  let a ← hexValue? a
  let b ← hexValue? b
  let c ← hexValue? c
  let d ← hexValue? d
  return ((a * 16 + b) * 16 + c) * 16 + d

/-- What the character after a backslash stands for, unless digits follow. -/
def shortEscape? (c : Char) : Option Nat :=
  if c = '"' then some 34
  else if c = '\\' then some 92
  else if c = '/' then some 47
  else if c = 'b' then some 8
  else if c = 'f' then some 12
  else if c = 'n' then some 10
  else if c = 'r' then some 13
  else if c = 't' then some 9
  else none

/-- The code units of a character: two surrogates beyond the basic plane. -/
def unitsOf (c : Char) : List Nat :=
  if c.toNat < 0x10000 then [c.toNat]
  else [0xd800 + (c.toNat - 0x10000) / 0x400, 0xdc00 + (c.toNat - 0x10000) % 0x400]

/-- The code units up to the closing quote, and what follows it. -/
def units? : List Char → Option (List Nat × List Char)
  | [] => none
  | c :: rest =>
    if c = '"' then some ([], rest)
    else if c = '\\' then
      match rest with
      | 'u' :: a :: b :: c :: d :: rest => do
        let unit ← unit? a b c d
        let (units, rest) ← units? rest
        some (unit :: units, rest)
      | mark :: rest => do
        let unit ← shortEscape? mark
        let (units, rest) ← units? rest
        some (unit :: units, rest)
      | [] => none
    else if c.toNat < 0x20 then none
    else do
      let (units, rest) ← units? rest
      some (unitsOf c ++ units, rest)

/-- Whether a code unit is the first of a pair. -/
def isHigh (unit : Nat) : Bool :=
  0xd800 ≤ unit && unit < 0xdc00

/-- Whether a code unit is the second of a pair. -/
def isLow (unit : Nat) : Bool :=
  0xdc00 ≤ unit && unit < 0xe000

/-- The characters of code units. A surrogate outside a pair is no character. -/
def decode? : List Nat → Option (List Char)
  | [] => some []
  | unit :: rest =>
    if isHigh unit then
      match rest with
      | [] => none
      | low :: rest =>
        if isLow low then do
          let chars ← decode? rest
          some (Char.ofNat (0x10000 + (unit - 0xd800) * 0x400 + (low - 0xdc00)) :: chars)
        else none
    else if isLow unit then none
    else do
      let chars ← decode? rest
      some (Char.ofNat unit :: chars)

/-- The text after an opening quote, and what follows it. -/
def text? (chars : List Char) : Option (String × List Char) := do
  let (units, rest) ← units? chars
  let decoded ← decode? units
  some (String.ofList decoded, rest)

/-! ## Numbers -/

/-- At least one digit, and what follows the digits. -/
def digits? (chars : List Char) : Option (List Char × List Char) :=
  match chars.takeWhile Char.isDigit with
  | [] => none
  | digit :: digits => some (digit :: digits, chars.dropWhile Char.isDigit)

/-- The digits before the point. Only a single one may be a zero at the start. -/
def whole? (chars : List Char) : Option (List Char × List Char) := do
  let (digits, rest) ← digits? chars
  if digits.head? = some '0' ∧ 1 < digits.length then none else some (digits, rest)

/-- The digits after the point, if there is one. -/
def fraction? (chars : List Char) : Option (List Char × List Char) :=
  match chars with
  | '.' :: rest => digits? rest
  | chars => some ([], chars)

/-- The power of ten that a number is scaled by. -/
def exponent? (chars : List Char) : Option (Int × List Char) :=
  match chars with
  | [] => some (0, [])
  | c :: rest =>
    if c = 'e' ∨ c = 'E' then do
      let (sign, unsigned) := match rest with
        | '+' :: rest => ((1 : Int), rest)
        | '-' :: rest => (-1, rest)
        | rest => (1, rest)
      let (digits, rest) ← digits? unsigned
      some (sign * Nat.ofDigitChars 10 digits 0, rest)
    else some (0, c :: rest)

/-- A number without a sign, and what follows it. -/
def magnitude? (chars : List Char) : Option (Rat × List Char) := do
  let (whole, rest) ← whole? chars
  let (fraction, rest) ← fraction? rest
  let (exponent, rest) ← exponent? rest
  some (Nat.ofDigitChars 10 (whole ++ fraction) 0 * (10 : Rat) ^ (exponent - fraction.length),
    rest)

/-- A number, and what follows it. -/
def number? (chars : List Char) : Option (Rat × List Char) :=
  match chars with
  | '-' :: rest => (magnitude? rest).map (fun (size, rest) => (-size, rest))
  | chars => magnitude? chars

/-! ## Values -/

/-- A value whose name has been begun, and what follows the name. -/
def literal? (name : String) (value : Value) (chars : List Char) : Option (Value × List Char) :=
  (Text.after? name.toList chars).map (fun rest => (value, rest))

/-- Members up to a closing bracket with commas between them, and what follows the bracket.
There are no more members than characters. -/
def members? {α : Type} (close : Char) (member? : List Char → Option (α × List Char)) :
    Nat → List Char → Option (List α × List Char)
  | 0, _ => none
  | count + 1, chars => do
    let (member, rest) ← member? chars
    match skipBlanks rest with
    | [] => none
    | c :: rest =>
      if c = close then some ([member], rest)
      else if c = ',' then do
        let (members, rest) ← members? close member? count rest
        some (member :: members, rest)
      else none

/-- What stands between an opening bracket and a closing one, which may follow at once. -/
def enclosed? {α : Type} (close : Char) (member? : List Char → Option (α × List Char))
    (chars : List Char) : Option (List α × List Char) :=
  match skipBlanks chars with
  | [] => none
  | c :: rest =>
    if c = close then some ([], rest) else members? close member? chars.length chars

/-- A name, a colon and a value. -/
def field? (value? : List Char → Option (Value × List Char)) (chars : List Char) :
    Option ((String × Value) × List Char) :=
  match skipBlanks chars with
  | '"' :: rest => do
    let (name, rest) ← text? rest
    match skipBlanks rest with
    | ':' :: rest => do
      let (value, rest) ← value? rest
      some ((name, value), rest)
    | _ => none
  | _ => none

/-- A value, and what follows it. The steps bound how deep arrays and objects are nested. -/
def value? : Nat → List Char → Option (Value × List Char)
  | 0, _ => none
  | steps + 1, chars =>
    match skipBlanks chars with
    | [] => none
    | c :: rest =>
      if c = '[' then
        (enclosed? ']' (value? steps) rest).map (fun (items, rest) => (.array items, rest))
      else if c = '\x7b' then
        (enclosed? '\x7d' (field? (value? steps)) rest).map
          (fun (fields, rest) => (.object fields, rest))
      else if c = '"' then (text? rest).map (fun (text, rest) => (.text text, rest))
      else if c = 't' then literal? "rue" (.boolean true) rest
      else if c = 'f' then literal? "alse" (.boolean false) rest
      else if c = 'n' then literal? "ull" .null rest
      else (number? (c :: rest)).map (fun (number, rest) => (.number number, rest))

/-- The value that a text stands for. Nothing but blanks may follow it. No text is nested deeper
than it is long. -/
def read? (text : String) : Option Value :=
  match value? text.toList.length text.toList with
  | some (value, rest) => if skipBlanks rest = [] then some value else none
  | none => none

-- Any layout is read, and so are numbers and escapes that reports do not use.
example : (read? " [-1.50e+2 ,\t\"\\/\\uD83D\\ude00\" , \x7b\"a\":null\x7d]\n").isSome = true := by
  decide +kernel

-- What is not JSON is refused: a comma at the end, a zero at the start, half of a pair.
example : ["[1,]", "01", "\"\\ud83d\"", "[] []"].all (fun text => (read? text).isNone) = true := by
  decide +kernel

/-! ## Blanks -/

/-- Nothing but blanks. -/
def Blank (chars : List Char) : Prop :=
  ∀ c ∈ chars, isBlank c = true

theorem skipBlanks_append {lead : List Char} (blank : Blank lead) (rest : List Char) :
    skipBlanks (lead ++ rest) = skipBlanks rest :=
  List.dropWhile_append_of_pos blank

theorem skipBlanks_cons {c : Char} (solid : isBlank c = false) (rest : List Char) :
    skipBlanks (c :: rest) = c :: rest := by
  simp [skipBlanks, solid]

/-- Skipping blanks stops at what is none. -/
theorem skipBlanks_solid {lead : List Char} (blank : Blank lead) {c : Char}
    (solid : isBlank c = false) (rest : List Char) :
    skipBlanks (lead ++ c :: rest) = c :: rest := by
  rw [skipBlanks_append blank, skipBlanks_cons solid]

/-! ## Reading texts -/

theorem units?_quote (rest : List Char) : units? ('"' :: rest) = some ([], rest) := by
  rw [units?.eq_def]
  simp

/-- Escapes of one character are for ASCII characters, and are written by them. -/
theorem shortEscape?_lt {mark : Char} {n : Nat} (known : shortEscape? mark = some n) :
    mark.toNat < 128 ∧ n < 128 := by
  unfold shortEscape? at known
  split_ifs at known with _ _ _ _ _ _ _ _
  all_goals
    subst mark
    cases known
    decide

/-- An escape of one character is read back. -/
theorem units?_shortEscape {mark : Char} {n : Nat} (known : shortEscape? mark = some n)
    (rest : List Char) :
    units? ('\\' :: mark :: rest) =
      (units? rest).map (fun (units, rest) => (n :: units, rest)) := by
  have other : mark ≠ 'u' := by
    rintro rfl
    cases known
  rw [units?]
  · cases units? rest with
    | none => simp [known]
    | some found => simp [known]
  · intro a b c d later same
    exact absurd same other

/-- A printable character stands for itself. -/
theorem units?_plain {c : Char} (unquoted : c ≠ '"') (unescaped : c ≠ '\\')
    (printable : 0x20 ≤ c.toNat) (rest : List Char) :
    units? (c :: rest) =
      (units? rest).map (fun (units, rest) => (unitsOf c ++ units, rest)) := by
  have visible : ¬ c.toNat < 0x20 := Nat.not_lt.mpr printable
  rw [units?.eq_def]
  cases later : units? rest with
  | none => simp [unquoted, unescaped, visible, later]
  | some found => simp [unquoted, unescaped, visible, later]

theorem unitsOf_basic {c : Char} (basic : c.toNat < 0x10000) : unitsOf c = [c.toNat] :=
  if_pos basic

theorem unitsOf_beyond {c : Char} (beyond : ¬ c.toNat < 0x10000) :
    unitsOf c =
      [0xd800 + (c.toNat - 0x10000) / 0x400, 0xdc00 + (c.toNat - 0x10000) % 0x400] :=
  if_neg beyond

theorem toNat_lt (c : Char) : c.toNat < 0x110000 := by
  rcases c.valid with small | ⟨_, large⟩
  · exact Nat.lt_trans small (by decide)
  · exact large

/-- The code units of a character are decoded to it. -/
theorem decode?_unitsOf (c : Char) (units : List Nat) :
    decode? (unitsOf c ++ units) = (decode? units).map (fun chars => c :: chars) := by
  by_cases basic : c.toNat < 0x10000
  · have scalar : isHigh c.toNat = false ∧ isLow c.toNat = false := by
      have valid : c.toNat < 0xd800 ∨ 0xdfff < c.toNat ∧ c.toNat < 0x110000 := c.valid
      simp only [isHigh, isLow, Bool.and_eq_false_iff, decide_eq_false_iff_not]
      omega
    rw [unitsOf_basic basic, List.singleton_append, decode?.eq_def]
    cases later : decode? units with
    | none => simp [scalar, later]
    | some chars => simp [scalar, later]
  · have bound := toNat_lt c
    have high : isHigh (0xd800 + (c.toNat - 0x10000) / 0x400) = true := by
      simp only [isHigh, Bool.and_eq_true, decide_eq_true_eq]
      omega
    have low : isLow (0xdc00 + (c.toNat - 0x10000) % 0x400) = true := by
      simp only [isLow, Bool.and_eq_true, decide_eq_true_eq]
      omega
    have code : 0x10000 + (0xd800 + (c.toNat - 0x10000) / 0x400 - 0xd800) * 0x400 +
        (0xdc00 + (c.toNat - 0x10000) % 0x400 - 0xdc00) = c.toNat := by
      omega
    rw [unitsOf_beyond basic]
    simp only [List.cons_append, List.nil_append]
    rw [decode?, if_pos high]
    simp only [low, if_true, code, Char.ofNat_toNat]
    cases decode? units with
    | none => rfl
    | some chars => rfl

theorem decode?_flatMap_unitsOf (chars : List Char) :
    decode? (chars.flatMap unitsOf) = some chars := by
  induction chars with
  | nil => rfl
  | cons c chars ih =>
      rw [List.flatMap_cons, decode?_unitsOf, ih]
      rfl

/-! ## Reading numbers -/

/-- What does not go on with a number: it starts with none of the characters that may follow
a digit. -/
def EndsNumber (rest : List Char) : Prop :=
  ∀ c later, rest = c :: later → c.isDigit = false ∧ c ≠ '.' ∧ c ≠ 'e' ∧ c ≠ 'E'

theorem exists_digit_toDigits (n : Nat) :
    ∃ digit digits, Nat.toDigits 10 n = digit :: digits ∧ digit.isDigit = true := by
  cases written : Nat.toDigits 10 n with
  | nil => exact absurd written Nat.toDigits_ne_nil
  | cons digit digits =>
      have member : digit ∈ Nat.toDigits 10 n := written ▸ List.mem_cons_self
      exact ⟨digit, digits, rfl, Nat.isDigit_of_mem_toDigits (by decide) (by decide) member⟩

theorem eq_zero_of_head?_toDigits {n : Nat} (zero : (Nat.toDigits 10 n).head? = some '0') :
    n = 0 := by
  induction n using Nat.strongRecOn with
  | ind n ih =>
      by_cases small : n < 10
      · have all : ∀ n < 10, (Nat.toDigits 10 n).head? = some '0' → n = 0 := by decide
        exact all n small zero
      · rw [Nat.toDigits_of_base_le (by decide) (Nat.le_of_not_lt small)] at zero
        obtain ⟨digit, digits, written, _⟩ := exists_digit_toDigits (n / 10)
        have := ih (n / 10) (by omega) (by simpa [written] using zero)
        omega

theorem digits?_toDigits (n : Nat) {rest : List Char} (ends : EndsNumber rest) :
    digits? (Nat.toDigits 10 n ++ rest) = some (Nat.toDigits 10 n, rest) := by
  have allDigits : ∀ c ∈ Nat.toDigits 10 n, c.isDigit = true := fun c member =>
    Nat.isDigit_of_mem_toDigits (by decide) (by decide) member
  have stops : rest.takeWhile Char.isDigit = [] ∧ rest.dropWhile Char.isDigit = rest := by
    cases rest with
    | nil => exact ⟨rfl, rfl⟩
    | cons c later => simp [(ends c later rfl).1]
  obtain ⟨digit, digits, written, _⟩ := exists_digit_toDigits n
  rw [digits?, List.takeWhile_append_of_pos allDigits, List.dropWhile_append_of_pos allDigits,
    stops.1, stops.2, List.append_nil, written]

theorem whole?_toDigits (n : Nat) {rest : List Char} (ends : EndsNumber rest) :
    whole? (Nat.toDigits 10 n ++ rest) = some (Nat.toDigits 10 n, rest) := by
  have plain : ¬ ((Nat.toDigits 10 n).head? = some '0' ∧ 1 < (Nat.toDigits 10 n).length) := by
    rintro ⟨zero, long⟩
    rw [eq_zero_of_head?_toDigits zero] at long
    exact absurd long (by decide)
  simp [whole?, digits?_toDigits n ends, plain]

theorem magnitude?_toDigits (n : Nat) {rest : List Char} (ends : EndsNumber rest) :
    magnitude? (Nat.toDigits 10 n ++ rest) = some ((n : Rat), rest) := by
  have noFraction : fraction? rest = some ([], rest) := by
    unfold fraction?
    split
    · next later => exact absurd rfl (ends '.' later rfl).2.1
    · rfl
  have noExponent : exponent? rest = some (0, rest) := by
    cases rest with
    | nil => rfl
    | cons c later =>
        obtain ⟨_, _, small, capital⟩ := ends c later rfl
        simp [exponent?, small, capital]
  simp [magnitude?, whole?_toDigits n ends, noFraction, noExponent,
    Nat.ofDigitChars_toDigits]

/-- **A written number is read back.** -/
theorem number?_toDigits (n : Nat) {rest : List Char} (ends : EndsNumber rest) :
    number? (Nat.toDigits 10 n ++ rest) = some ((n : Rat), rest) := by
  obtain ⟨digit, digits, written, isDigit⟩ := exists_digit_toDigits n
  rw [← magnitude?_toDigits n ends, written]
  unfold number?
  split
  · next same =>
      cases (List.cons.inj same).1
      cases isDigit
  · rfl

/-! ## Reading members and values -/

/-- A text is read with a given result, whatever blanks stand before it, unless what follows goes
on with a number. It starts with neither a blank nor a closing bracket. -/
structure Reads {α : Type} (reader : List Char → Option (α × List Char)) (text : List Char)
    (result : α) : Prop where
  starts : ∃ c tail, text = c :: tail ∧ isBlank c = false ∧ c ≠ ']' ∧ c ≠ '\x7d'
  read : ∀ lead rest, Blank lead → EndsNumber rest →
    reader (lead ++ (text ++ rest)) = some (result, rest)

/-- A closing bracket is none of the characters that members are told apart by. -/
structure Closing (close : Char) : Prop where
  solid : isBlank close = false
  ends : ∀ rest, EndsNumber (close :: rest)
  first : ∀ c, c ≠ ']' → c ≠ '\x7d' → c ≠ close

theorem closing_bracket : Closing ']' where
  solid := rfl
  ends := by
    rintro rest c later ⟨⟩
    decide
  first := fun c bracket _ => bracket

theorem closing_brace : Closing '\x7d' where
  solid := rfl
  ends := by
    rintro rest c later ⟨⟩
    decide
  first := fun c _ brace => brace

theorem endsNumber_comma (rest : List Char) : EndsNumber (',' :: rest) := by
  rintro c later ⟨⟩
  decide

/-- No number goes on with a blank. -/
theorem EndsNumber.append {gap rest : List Char} (ends : EndsNumber rest) (blank : Blank gap) :
    EndsNumber (gap ++ rest) := by
  cases gap with
  | nil => exact ends
  | cons first gap =>
      rintro c later ⟨⟩
      have among := blank first List.mem_cons_self
      simp only [isBlank, Bool.or_eq_true, beq_iff_eq] at among
      rcases among with ((rfl | rfl) | rfl) | rfl <;> decide

section Members

variable {α : Type} {reader : List Char → Option (α × List Char)} {close : Char}

/-- **Members with commas and blanks between them are read**, if each of them is. -/
theorem members?_intercalate (closing : Closing close) {texts : List (List Char)}
    {results : List α} (each : List.Forall₂ (Reads reader) texts results) (given : texts ≠ [])
    {lead gap outer : List Char} (blankLead : Blank lead) (blankGap : Blank gap)
    (blankOuter : Blank outer) {count : Nat} (enough : texts.length ≤ count)
    (rest : List Char) :
    members? close reader count
      (lead ++ ((',' :: gap).intercalate texts ++ (outer ++ close :: rest))) =
        some (results, rest) := by
  induction each generalizing lead count with
  | nil => exact absurd rfl given
  | @cons text result texts results first others ih =>
      obtain ⟨count, rfl⟩ := Nat.exists_eq_succ_of_ne_zero (Nat.ne_zero_of_lt enough)
      cases others with
      | nil =>
          have read := first.read lead _ blankLead ((closing.ends rest).append blankOuter)
          have stop := skipBlanks_solid blankOuter closing.solid rest
          simp [members?, read, stop]
      | @cons next other texts results second others =>
          have read := first.read lead (',' :: (gap ++ ((',' :: gap).intercalate (next :: texts) ++
            (outer ++ close :: rest)))) blankLead (endsNumber_comma _)
          have onward := ih (List.cons_ne_nil _ _) blankGap (Nat.le_of_succ_le_succ enough)
          have comma : ',' ≠ close := closing.first ',' (by decide) (by decide)
          rw [List.intercalate_cons_cons]
          simp only [List.append_assoc, List.cons_append]
          simp [members?, read, skipBlanks_cons, isBlank, comma, onward]

theorem enclosed?_nil (closing : Closing close) (rest : List Char) :
    enclosed? close reader (close :: rest) = some ([], rest) := by
  simp [enclosed?, skipBlanks_cons closing.solid]

theorem length_le_intercalate (separator : List Char) {text : List Char}
    {texts : List (List Char)} (member : text ∈ texts) :
    text.length ≤ (separator.intercalate texts).length := by
  induction texts with
  | nil => cases member
  | cons first texts ih =>
      cases texts with
      | nil => simp_all
      | cons next texts =>
          rw [List.intercalate_cons_cons, List.length_append, List.length_append]
          rcases List.mem_cons.mp member with rfl | later
          · omega
          · have := ih later
            omega

theorem length_le_intercalate_cons (c : Char) (gap : List Char) (texts : List (List Char)) :
    texts.length ≤ ((c :: gap).intercalate texts).length + 1 := by
  induction texts with
  | nil => exact Nat.zero_le _
  | cons first texts ih =>
      cases texts with
      | nil => simp
      | cons next texts =>
          rw [List.intercalate_cons_cons]
          simp only [List.length_append, List.length_cons] at ih ⊢
          omega

theorem exists_cons_intercalate (separator : List Char) (c : Char) (tail : List Char)
    (texts : List (List Char)) :
    ∃ later, separator.intercalate ((c :: tail) :: texts) = c :: later := by
  cases texts with
  | nil => exact ⟨tail, List.intercalate_singleton⟩
  | cons next texts => exact ⟨_, List.intercalate_cons_cons⟩

/-- Members between brackets are read, if each of them is. -/
theorem enclosed?_intercalate (closing : Closing close) {texts : List (List Char)}
    {results : List α} (each : List.Forall₂ (Reads reader) texts results) (given : texts ≠ [])
    {gap outer : List Char} (blankGap : Blank gap) (blankOuter : Blank outer)
    (rest : List Char) :
    enclosed? close reader
      (gap ++ ((',' :: gap).intercalate texts ++ (outer ++ close :: rest))) =
        some (results, rest) := by
  have enough : texts.length ≤
      (gap ++ ((',' :: gap).intercalate texts ++ (outer ++ close :: rest))).length := by
    have := length_le_intercalate_cons ',' gap texts
    simp only [List.length_append, List.length_cons]
    omega
  have read := members?_intercalate closing each given blankGap blankGap blankOuter enough rest
  cases each with
  | nil => exact absurd rfl given
  | @cons text result texts results first others =>
      obtain ⟨c, tail, rfl, solid, bracket, brace⟩ := first.starts
      obtain ⟨later, joined⟩ := exists_cons_intercalate (',' :: gap) c tail texts
      rw [joined, List.cons_append] at read ⊢
      rw [enclosed?, skipBlanks_solid blankGap solid]
      exact (if_neg (closing.first c bracket brace)).trans read

end Members

section Values

variable {steps : Nat}

theorem reads_text {text : String} {chars : List Char}
    (read : ∀ rest, text? (chars ++ '"' :: rest) = some (text, rest)) :
    Reads (value? (steps + 1)) ('"' :: (chars ++ ['"'])) (.text text) where
  starts := ⟨'"', _, rfl, rfl, by decide, by decide⟩
  read := by
    intro lead rest blank _
    have start := skipBlanks_solid blank (show isBlank '"' = false from rfl)
      (chars ++ '"' :: rest)
    simp only [List.cons_append, List.append_assoc, List.nil_append]
    simp [value?, start, read rest]

theorem reads_number (n : Nat) :
    Reads (value? (steps + 1)) (Nat.toDigits 10 n) (.number n) := by
  obtain ⟨digit, digits, written, isDigit⟩ := exists_digit_toDigits n
  have other : ∀ c : Char, c.isDigit = false → digit ≠ c := by
    rintro c noDigit rfl
    rw [isDigit] at noDigit
    cases noDigit
  have solid : isBlank digit = false := by
    simp [isBlank, other ' ' rfl, other '\t' rfl, other '\n' rfl, other '\r' rfl]
  constructor
  · exact ⟨digit, digits, written, solid, other ']' rfl, other '\x7d' rfl⟩
  · intro lead rest blank ends
    have read := number?_toDigits n ends
    rw [written, List.cons_append] at read ⊢
    simp [value?, skipBlanks_solid blank solid, read, other '[' rfl, other '\x7b' rfl,
      other '"' rfl, other 't' rfl, other 'f' rfl, other 'n' rfl]

/-- An array is read if what stands between its brackets is. -/
theorem reads_array {inner : List Char} {items : List Value}
    (read : ∀ rest, enclosed? ']' (value? steps) (inner ++ rest) = some (items, rest)) :
    Reads (value? (steps + 1)) ('[' :: inner) (.array items) where
  starts := ⟨'[', inner, rfl, rfl, by decide, by decide⟩
  read := by
    intro lead rest blank _
    have start := skipBlanks_solid blank (show isBlank '[' = false from rfl) (inner ++ rest)
    rw [List.cons_append]
    simp [value?, start, read rest]

/-- An object is read if what stands between its braces is. -/
theorem reads_object {inner : List Char} {fields : List (String × Value)}
    (read : ∀ rest, enclosed? '\x7d' (field? (value? steps)) (inner ++ rest) =
      some (fields, rest)) :
    Reads (value? (steps + 1)) ('\x7b' :: inner) (.object fields) where
  starts := ⟨'\x7b', inner, rfl, rfl, by decide, by decide⟩
  read := by
    intro lead rest blank _
    have start := skipBlanks_solid blank (show isBlank '\x7b' = false from rfl) (inner ++ rest)
    rw [List.cons_append]
    simp [value?, start, read rest]

/-- A field is read if its name and its value are. -/
theorem reads_field {reader : List Char → Option (Value × List Char)} {name : String}
    {chars text gap : List Char} {value : Value} (blankGap : Blank gap)
    (label : ∀ rest, text? (chars ++ '"' :: rest) = some (name, rest))
    (valued : Reads reader text value) :
    Reads (field? reader) ('"' :: (chars ++ '"' :: ':' :: (gap ++ text))) (name, value) where
  starts := ⟨'"', _, rfl, rfl, by decide, by decide⟩
  read := by
    intro lead rest blank ends
    have start := skipBlanks_solid blank (show isBlank '"' = false from rfl)
      (chars ++ '"' :: ':' :: (gap ++ (text ++ rest)))
    have colon := skipBlanks_cons (show isBlank ':' = false from rfl) (gap ++ (text ++ rest))
    have read := valued.read gap rest blankGap ends
    simp only [List.cons_append, List.append_assoc]
    simp [field?, start, label, colon, read]

end Values

end CyclicCalls.StandardJson
