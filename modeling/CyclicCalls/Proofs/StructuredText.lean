import CyclicCalls.Proofs.SeparatedText
import CyclicCalls.Proofs.StandardJson
import CyclicCalls.Report.Json
import Mathlib.Data.List.Forall2
/-!
# Structured text

What a report writes, a JSON reader reads back (`read?_write`). There is one lemma for each kind of
value. The layout enters only through the blanks between the members of arrays and objects
(`between`), which the reader skips; the characters of a text are written in four ways
(`Written`), and each of them is read as the code units of the character.

A written value is plain ASCII (`ascii_write`).
-/

set_option autoImplicit false

namespace CyclicCalls.StandardJson

open Report.Json

/-- Values of a report are made from numbers and texts by arrays and objects. -/
theorem json_induction {P : Report.Json → Prop} (ofNumber : ∀ n, P (.number n))
    (ofText : ∀ given, P (.text given))
    (ofArray : ∀ items, (∀ item ∈ items, P item) → P (.array items))
    (ofObject : ∀ fields : List (String × Report.Json),
      (∀ field ∈ fields, P field.2) → P (.object fields)) (json : Report.Json) : P json :=
  @Report.Json.rec P (fun items => ∀ item ∈ items, P item)
    (fun fields => ∀ field ∈ fields, P field.2) (fun field => P field.2)
    ofNumber ofText ofArray ofObject (by simp)
    (fun _ _ first others => List.forall_mem_cons.mpr ⟨first, others⟩) (by simp)
    (fun _ _ first others => List.forall_mem_cons.mpr ⟨first, others⟩)
    (fun _ _ known => known) json

theorem blank_newLine (level : Nat) : Blank (newLine level).toList := by
  intro c member
  simp only [newLine, String.toList_append, String.toList_ofList, List.mem_append,
    List.mem_replicate] at member
  rcases member with member | ⟨_, rfl⟩
  · have ended : c = '\n' := by simpa using member
    rw [ended]
    rfl
  · rfl

/-! ## Written texts -/

theorem hexValue?_hexDigit {n : Nat} (small : n < 16) : hexValue? (Text.hexDigit n) = some n := by
  have all : ∀ n < 16, hexValue? (Text.hexDigit n) = some n := by decide
  exact all n small

/-- Four written digits are read back. -/
theorem units?_unitEscape {n : Nat} (small : n < 0x10000) (rest : List Char) :
    units? (unitEscape n ++ rest) =
      (units? rest).map (fun (units, rest) => (n :: units, rest)) := by
  have digits : ((n / 256 / 16 % 16 * 16 + n / 256 % 16) * 16 + n / 16 % 16) * 16 + n % 16 = n := by
    omega
  rw [unitEscape, Text.hex2, Text.hex2]
  simp only [List.cons_append, List.nil_append]
  rw [units?]
  cases units? rest with
  | none => simp [unit?, hexValue?_hexDigit (Nat.mod_lt _ _)]
  | some found => simp [unit?, hexValue?_hexDigit (Nat.mod_lt _ _), digits]

/-- How a character is written: by an escape of its own, as itself, by its code unit, or by a
pair of surrogates. -/
inductive Written (c : Char) : List Char → Prop
  | marked {mark : Char} (known : shortEscape? mark = some c.toNat) : Written c ['\\', mark]
  | plain (unquoted : c ≠ '"') (unescaped : c ≠ '\\') (low : 0x20 ≤ c.toNat)
      (high : c.toNat ≤ 0x7e) : Written c [c]
  | unit (basic : c.toNat < 0x10000) : Written c (unitEscape c.toNat)
  | pair (beyond : ¬ c.toNat < 0x10000) :
      Written c (unitEscape (0xd800 + (c.toNat - 0x10000) / 0x400) ++
        unitEscape (0xdc00 + (c.toNat - 0x10000) % 0x400))

theorem written_writtenChar (c : Char) : Written c (writtenChar c) := by
  unfold writtenChar
  split_ifs with quote backslash newline carriage tab backspace feed printable basic
  · obtain rfl : c = '"' := by simpa using quote
    exact .marked rfl
  · obtain rfl : c = '\\' := by simpa using backslash
    exact .marked rfl
  · obtain rfl : c = '\n' := by simpa using newline
    exact .marked rfl
  · obtain rfl : c = '\r' := by simpa using carriage
    exact .marked rfl
  · obtain rfl : c = '\t' := by simpa using tab
    exact .marked rfl
  · have code : c.toNat = 8 := by simpa using backspace
    exact .marked (by rw [code]; rfl)
  · have code : c.toNat = 12 := by simpa using feed
    exact .marked (by rw [code]; rfl)
  · have range : 0x20 ≤ c.toNat ∧ c.toNat ≤ 0x7e := by simpa using printable
    exact .plain (by simpa using quote) (by simpa using backslash) range.1 range.2
  · exact .unit basic
  · exact .pair basic

/-- Each written character is read back as its code units. -/
theorem units?_writtenChar (c : Char) (rest : List Char) :
    units? (writtenChar c ++ rest) =
      (units? rest).map (fun (units, rest) => (unitsOf c ++ units, rest)) := by
  have shape := written_writtenChar c
  generalize writtenChar c = chars at shape
  cases shape with
  | marked known =>
      rw [unitsOf_basic (Nat.lt_of_lt_of_le (shortEscape?_lt known).2 (by decide))]
      exact units?_shortEscape known rest
  | plain unquoted unescaped low _ => exact units?_plain unquoted unescaped low rest
  | unit basic =>
      rw [unitsOf_basic basic, units?_unitEscape basic]
      rfl
  | pair beyond =>
      have bound := toNat_lt c
      rw [unitsOf_beyond beyond, List.append_assoc, units?_unitEscape (by omega),
        units?_unitEscape (by omega), Option.map_map]
      rfl

theorem units?_flatMap_writtenChar (chars rest : List Char) :
    units? (chars.flatMap writtenChar ++ '"' :: rest) = some (chars.flatMap unitsOf, rest) := by
  induction chars with
  | nil => exact units?_quote rest
  | cons c chars ih =>
      rw [List.flatMap_cons, List.append_assoc, units?_writtenChar, ih]
      rfl

/-- **A written text is read back.** -/
theorem text?_flatMap_writtenChar (text : String) (rest : List Char) :
    text? (text.toList.flatMap writtenChar ++ '"' :: rest) = some (text, rest) := by
  simp [text?, units?_flatMap_writtenChar, decode?_flatMap_unitsOf]

theorem toList_writtenText (given : String) :
    (writtenText given).toList = '"' :: (given.toList.flatMap writtenChar ++ ['"']) := by
  simp [writtenText]

/-! ## Written values -/

mutual

/-- What a value of a report stands for. -/
def meaning : Report.Json → Value
  | .number value => .number value
  | .text value => .text value
  | .array items => .array (meanings items)
  | .object fields => .object (fieldMeanings fields)

/-- What the members of an array stand for. -/
def meanings : List Report.Json → List Value
  | [] => []
  | item :: items => meaning item :: meanings items

/-- What the members of an object stand for. -/
def fieldMeanings : List (String × Report.Json) → List (String × Value)
  | [] => []
  | (name, value) :: fields => (name, meaning value) :: fieldMeanings fields

end

theorem meanings_eq (items : List Report.Json) : meanings items = items.map meaning := by
  induction items with
  | nil => rfl
  | cons item items ih => rw [meanings, ih, List.map_cons]

theorem fieldMeanings_eq (fields : List (String × Report.Json)) :
    fieldMeanings fields = fields.map (fun field => (field.1, meaning field.2)) := by
  induction fields with
  | nil => rfl
  | cons field fields ih => rw [fieldMeanings, ih, List.map_cons]

/-- A written field of an object. -/
def writtenField (level : Nat) (field : String × Report.Json) : String :=
  writtenText field.1 ++ ": " ++ writeAt level field.2

theorem toList_writtenField (level : Nat) (field : String × Report.Json) :
    (writtenField level field).toList =
      '"' :: (field.1.toList.flatMap writtenChar ++
        '"' :: ':' :: ([' '] ++ (writeAt level field.2).toList)) := by
  simp [writtenField, toList_writtenText]

theorem writeItems_eq (level : Nat) (items : List Report.Json) :
    writeItems level items = items.map (writeAt level) := by
  induction items with
  | nil => rfl
  | cons item items ih => rw [writeItems, ih, List.map_cons]

theorem writeFields_eq (level : Nat) (fields : List (String × Report.Json)) :
    writeFields level fields = fields.map (writtenField level) := by
  induction fields with
  | nil => rfl
  | cons field fields ih =>
      rw [writeFields, ih, List.map_cons]
      rfl

/-- What follows the opening bracket: members on lines of their own, and the closing bracket on
the last line. -/
def between (close : Char) (level : Nat) (parts : List String) : List Char :=
  (newLine (level + 1)).toList ++
    ((',' :: (newLine (level + 1)).toList).intercalate (parts.map String.toList) ++
      ((newLine level).toList ++ [close]))

theorem toList_writeAt_array {items : List Report.Json} (given : items ≠ []) (level : Nat) :
    (writeAt level (.array items)).toList =
      '[' :: between ']' level (items.map (writeAt (level + 1))) := by
  cases items with
  | nil => exact absurd rfl given
  | cons item items => simp [writeAt, writeItems_eq, between, Text.toList_join]

theorem toList_writeAt_object {fields : List (String × Report.Json)} (given : fields ≠ [])
    (level : Nat) :
    (writeAt level (.object fields)).toList =
      '\x7b' :: between '\x7d' level (fields.map (writtenField (level + 1))) := by
  cases fields with
  | nil => exact absurd rfl given
  | cons field fields => simp [writeAt, writeFields_eq, between, Text.toList_join]

/-- What stands between brackets is read if the members are. -/
theorem enclosed?_between {α : Type} {reader : List Char → Option (α × List Char)}
    {close : Char} (closing : Closing close) {parts : List String} {results : List α}
    (given : parts ≠ [])
    (each : List.Forall₂ (fun part => Reads reader part.toList) parts results) (level : Nat)
    (rest : List Char) :
    enclosed? close reader (between close level parts ++ rest) = some (results, rest) := by
  simp only [between, List.append_assoc, List.cons_append, List.nil_append]
  apply enclosed?_intercalate closing _ _ (blank_newLine _) (blank_newLine _)
  · rw [List.forall₂_map_left_iff]
    exact each
  · simpa using given

theorem length_le_between {close : Char} {part : String} {parts : List String} (level : Nat)
    (member : part ∈ parts) : part.toList.length ≤ (between close level parts).length := by
  have among : part.toList ∈ parts.map String.toList := List.mem_map_of_mem member
  have inner := length_le_intercalate (',' :: (newLine (level + 1)).toList) among
  rw [between]
  simp only [List.length_append]
  omega

/-- A written value is read back, with as many steps as it has characters. -/
def ReadsBack (json : Report.Json) : Prop :=
  ∀ level steps, (writeAt level json).toList.length ≤ steps →
    Reads (value? steps) (writeAt level json).toList (meaning json)

theorem readsBack_number (n : Nat) : ReadsBack (.number n) := by
  intro level steps enough
  have written : (writeAt level (.number n)).toList = Nat.toDigits 10 n := by simp [writeAt]
  rw [written] at enough ⊢
  have needed : steps ≠ 0 := Nat.ne_zero_of_lt (Nat.lt_of_lt_of_le Nat.length_toDigits_pos enough)
  obtain ⟨steps, rfl⟩ := Nat.exists_eq_succ_of_ne_zero needed
  exact reads_number n

theorem readsBack_text (given : String) : ReadsBack (.text given) := by
  intro level steps enough
  rw [writeAt, toList_writtenText] at enough ⊢
  obtain ⟨steps, rfl⟩ := Nat.exists_eq_succ_of_ne_zero (Nat.ne_zero_of_lt enough)
  exact reads_text (text?_flatMap_writtenChar given)

theorem readsBack_array {items : List Report.Json} (each : ∀ item ∈ items, ReadsBack item) :
    ReadsBack (.array items) := by
  intro level steps enough
  rw [meaning, meanings_eq]
  by_cases given : items = []
  · subst given
    have written : (writeAt level (.array [])).toList = ['[', ']'] := by simp [writeAt]
    rw [written] at enough ⊢
    obtain ⟨steps, rfl⟩ := Nat.exists_eq_succ_of_ne_zero (Nat.ne_zero_of_lt enough)
    exact reads_array (enclosed?_nil closing_bracket)
  · rw [toList_writeAt_array given] at enough ⊢
    obtain ⟨steps, rfl⟩ := Nat.exists_eq_succ_of_ne_zero (Nat.ne_zero_of_lt enough)
    apply reads_array
    apply enclosed?_between closing_bracket
    · simpa using given
    · rw [List.forall₂_map_left_iff, List.forall₂_map_right_iff, List.forall₂_same]
      intro item member
      apply each item member
      exact (length_le_between level (List.mem_map_of_mem member)).trans
        (Nat.le_of_succ_le_succ enough)

theorem readsBack_object {fields : List (String × Report.Json)}
    (each : ∀ field ∈ fields, ReadsBack field.2) : ReadsBack (.object fields) := by
  intro level steps enough
  rw [meaning, fieldMeanings_eq]
  by_cases given : fields = []
  · subst given
    have written : (writeAt level (.object [])).toList = ['\x7b', '\x7d'] := by simp [writeAt]
    rw [written] at enough ⊢
    obtain ⟨steps, rfl⟩ := Nat.exists_eq_succ_of_ne_zero (Nat.ne_zero_of_lt enough)
    exact reads_object (enclosed?_nil closing_brace)
  · rw [toList_writeAt_object given] at enough ⊢
    obtain ⟨steps, rfl⟩ := Nat.exists_eq_succ_of_ne_zero (Nat.ne_zero_of_lt enough)
    apply reads_object
    apply enclosed?_between closing_brace
    · simpa using given
    · rw [List.forall₂_map_left_iff, List.forall₂_map_right_iff, List.forall₂_same]
      intro field member
      have fits := (length_le_between level (List.mem_map_of_mem member)).trans
        (Nat.le_of_succ_le_succ enough)
      rw [toList_writtenField] at fits ⊢
      apply reads_field (by simp [Blank, isBlank]) (text?_flatMap_writtenChar field.1)
      apply each field member
      simp only [List.length_cons, List.length_append] at fits
      omega

/-- **A report value is read back from its written form.** -/
theorem read?_write (json : Report.Json) : read? json.write = some (meaning json) := by
  have ends : EndsNumber [] := by
    rintro c later ⟨⟩
  have reads : ReadsBack json := json_induction readsBack_number readsBack_text
    (fun _ => readsBack_array) (fun _ => readsBack_object) json
  have read := (reads 0 _ (Nat.le_refl _)).read [] [] (by simp [Blank]) ends
  rw [List.nil_append, List.append_nil] at read
  rw [read?, write, read]
  rfl

/-! ## Plain characters -/

/-- All characters of a text are ASCII characters. -/
def Ascii (text : String) : Prop :=
  ∀ c ∈ text.toList, c.toNat < 128

theorem ascii_append {first second : String} :
    Ascii (first ++ second) ↔ Ascii first ∧ Ascii second := by
  simp only [Ascii, String.toList_append, List.forall_mem_append]

theorem ascii_join {mark : String} {parts : List String} (plain : Ascii mark)
    (each : ∀ part ∈ parts, Ascii part) : Ascii (Text.join mark parts) := by
  induction parts with
  | nil => simp [Text.join, Ascii]
  | cons part parts ih =>
      obtain ⟨first, others⟩ := List.forall_mem_cons.mp each
      cases parts with
      | nil => exact first
      | cons next parts => exact ascii_append.mpr ⟨ascii_append.mpr ⟨first, plain⟩, ih others⟩

theorem hexDigit_lt {n : Nat} (small : n < 16) : (Text.hexDigit n).toNat < 128 := by
  have all : ∀ n < 16, (Text.hexDigit n).toNat < 128 := by decide
  exact all n small

theorem unitEscape_lt {n : Nat} {c : Char} (member : c ∈ unitEscape n) : c.toNat < 128 := by
  have digit : ∀ n, (Text.hexDigit (n % 16)).toNat < 128 := fun n =>
    hexDigit_lt (Nat.mod_lt n (by decide))
  simp only [unitEscape, Text.hex2, List.mem_cons, List.mem_append, List.not_mem_nil,
    or_false] at member
  rcases member with rfl | rfl | (rfl | rfl) | rfl | rfl
  · decide
  · decide
  all_goals exact digit _

theorem writtenChar_lt {c written : Char} (member : written ∈ writtenChar c) :
    written.toNat < 128 := by
  have shape := written_writtenChar c
  generalize writtenChar c = chars at member shape
  cases shape with
  | marked known =>
      simp only [List.mem_cons, List.not_mem_nil, or_false] at member
      rcases member with rfl | rfl
      · decide
      · exact (shortEscape?_lt known).1
  | plain _ _ _ high =>
      rw [List.mem_singleton.mp member]
      omega
  | unit _ => exact unitEscape_lt member
  | pair _ => exact (List.mem_append.mp member).elim unitEscape_lt unitEscape_lt

theorem ascii_writtenText (given : String) : Ascii (writtenText given) := by
  intro c member
  rw [toList_writtenText] at member
  simp only [List.mem_cons, List.mem_append, List.mem_flatMap, List.not_mem_nil,
    or_false] at member
  rcases member with rfl | ⟨_, _, written⟩ | rfl
  · decide
  · exact writtenChar_lt written
  · decide

theorem ascii_newLine (level : Nat) : Ascii (newLine level) := by
  intro c member
  have blank := blank_newLine level c member
  simp only [isBlank, Bool.or_eq_true, beq_iff_eq] at blank
  rcases blank with ((rfl | rfl) | rfl) | rfl <;> decide

theorem ascii_number (n : Nat) : Ascii (toString n) := by
  intro c member
  rw [Nat.toString_eq_ofList_toDigits, String.toList_ofList] at member
  have digit := Nat.isDigit_of_mem_toDigits (by decide) (by decide) member
  have range : 48 ≤ c.val ∧ c.val ≤ 57 := by simpa [Char.isDigit] using digit
  exact Nat.lt_of_le_of_lt (UInt32.le_iff_toNat_le.mp range.2) (by decide)

/-- Members on lines of their own between two brackets. -/
theorem ascii_enclosed {left right : String} {parts : List String} (level : Nat)
    (plain : Ascii left ∧ Ascii right) (each : ∀ part ∈ parts, Ascii part) :
    Ascii (left ++ newLine (level + 1) ++ Text.join ("," ++ newLine (level + 1)) parts ++
      newLine level ++ right) := by
  have separator : Ascii ("," ++ newLine (level + 1)) :=
    ascii_append.mpr ⟨by simp [Ascii], ascii_newLine _⟩
  simp only [ascii_append]
  exact ⟨⟨⟨⟨plain.1, ascii_newLine _⟩, ascii_join separator each⟩, ascii_newLine _⟩, plain.2⟩

theorem ascii_array {items : List Report.Json}
    (each : ∀ item ∈ items, ∀ level, Ascii (writeAt level item)) (level : Nat) :
    Ascii (writeAt level (.array items)) := by
  have parts : ∀ written ∈ writeItems (level + 1) items, Ascii written := by
    rw [writeItems_eq, List.forall_mem_map]
    exact fun item member => each item member (level + 1)
  cases items with
  | nil =>
      rw [writeAt]
      simp [Ascii]
  | cons item items => exact ascii_enclosed level (by simp [Ascii]) parts

theorem ascii_object {fields : List (String × Report.Json)}
    (each : ∀ field ∈ fields, ∀ level, Ascii (writeAt level field.2)) (level : Nat) :
    Ascii (writeAt level (.object fields)) := by
  have parts : ∀ written ∈ writeFields (level + 1) fields, Ascii written := by
    rw [writeFields_eq, List.forall_mem_map]
    intro field member
    simp only [writtenField, ascii_append]
    exact ⟨⟨ascii_writtenText field.1, by simp [Ascii]⟩, each field member (level + 1)⟩
  cases fields with
  | nil =>
      rw [writeAt]
      simp [Ascii]
  | cons field fields => exact ascii_enclosed level (by simp [Ascii]) parts

/-- **Written values are plain ASCII.** -/
theorem ascii_write (json : Report.Json) : Ascii json.write := by
  have plain : ∀ level, Ascii (writeAt level json) :=
    json_induction (fun n _ => ascii_number n) (fun given _ => ascii_writtenText given)
      (fun _ => ascii_array) (fun _ => ascii_object) json
  exact plain 0

end CyclicCalls.StandardJson
