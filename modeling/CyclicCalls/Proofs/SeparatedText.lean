import CyclicCalls.Text.Split
import Mathlib.Data.List.Basic
import Mathlib.Data.List.Infix
/-!
# Separated text

A text is split at the leftmost occurrence of the separator, and what follows is split in the
same way, until the separator does not occur any more (`SplitsInto`). This says nothing of how
the pieces are found, and there is one way to do it (`SplitsInto.unique`). `split` finds these
pieces for every separator that is not empty (`split_eq_iff`), and joining them gives the text
back (`join_split`).

Joining pieces can be undone by splitting if in each piece followed by the separator the
separator comes first at the end of the piece (`split_join`). It is not enough that no piece
holds the separator: the end of a piece and the start of the separator may make one up. Nothing
else can go wrong, and nothing follows the last piece, so the condition is exact
(`split_join_iff`).
-/

set_option autoImplicit false

namespace CyclicCalls.Text

variable {separator : List Char}

theorem after?_eq_some_iff {lead chars tail : List Char} :
    after? lead chars = some tail ↔ chars = lead ++ tail := by
  induction lead generalizing chars with
  | nil => simp [after?, eq_comm]
  | cons a lead ih =>
      cases chars with
      | nil => simp [after?]
      | cons c chars =>
          by_cases same : a = c
          · simp [after?, same, ih]
          · simp [after?, same, Ne.symm same]

/-! ## Splitting at the leftmost occurrences -/

/-- The pieces of a text between the leftmost occurrences of a separator. -/
inductive SplitsInto (separator : List Char) : List Char → List (List Char) → Prop
  | whole {chars : List Char} (absent : ¬ separator <:+: chars) :
      SplitsInto separator chars [chars]
  | cut {piece rest : List Char} {others : List (List Char)}
      (leftmost : ∀ before after, piece ++ separator ++ rest = before ++ separator ++ after →
        piece.length ≤ before.length)
      (onward : SplitsInto separator rest others) :
      SplitsInto separator (piece ++ separator ++ rest) (piece :: others)

namespace SplitsInto

/-- A character before which no separator starts goes to the first piece. -/
theorem consFirst {c : Char} {rest : List Char} {pieces : List (List Char)}
    (splits : SplitsInto separator rest pieces) (apart : ¬ separator <+: c :: rest) :
    SplitsInto separator (c :: rest) (consFirst c pieces) := by
  cases splits with
  | whole absent =>
      apply whole
      rw [List.infix_cons_iff]
      exact not_or.mpr ⟨apart, absent⟩
  | @cut piece rest others leftmost onward =>
      show SplitsInto separator ((c :: piece) ++ separator ++ rest) ((c :: piece) :: others)
      apply cut _ onward
      intro before after same
      cases before with
      | nil => exact absurd ⟨after, same.symm⟩ apart
      | cons first before =>
          have tails : piece ++ separator ++ rest = before ++ separator ++ after :=
            (List.cons.inj same).2
          exact Nat.succ_le_succ (leftmost before after tails)

/-- **There is one way to split a text.** -/
theorem unique {chars : List Char} {pieces others : List (List Char)}
    (first : SplitsInto separator chars pieces) (second : SplitsInto separator chars others) :
    pieces = others := by
  induction first generalizing others with
  | whole absent =>
      cases second with
      | whole => rfl
      | @cut piece rest => exact absurd ⟨piece, rest, rfl⟩ absent
  | @cut piece rest pieces leftmost onward ih =>
      generalize divided : piece ++ separator ++ rest = chars at second
      cases second with
      | whole absent => exact absurd ⟨piece, rest, divided⟩ absent
      | @cut other later others first second =>
          -- Each cut is leftmost, so the two pieces have the same length.
          have level : piece.length = other.length :=
            Nat.le_antisymm (leftmost other later divided) (first piece rest divided.symm)
          rw [List.append_assoc, List.append_assoc] at divided
          obtain ⟨rfl, remain⟩ := List.append_inj divided level
          obtain rfl := List.append_cancel_left remain
          rw [ih second]

/-- With the separator between them, the pieces make up the text. -/
theorem intercalate_eq {chars : List Char} {pieces : List (List Char)}
    (splits : SplitsInto separator chars pieces) : separator.intercalate pieces = chars := by
  induction splits with
  | whole => exact List.intercalate_singleton
  | @cut piece rest others leftmost onward ih =>
      obtain ⟨next, later, rfl⟩ : ∃ next later, others = next :: later := by
        cases onward with
        | whole => exact ⟨_, _, rfl⟩
        | cut => exact ⟨_, _, rfl⟩
      rw [List.intercalate_cons_cons, ih, List.append_assoc]

end SplitsInto

theorem splitsInto_pieces (given : separator ≠ []) (chars : List Char) :
    SplitsInto separator chars (pieces separator chars) := by
  fun_induction pieces separator chars with
  | case1 => exact .whole (by simpa using given)
  | case2 c rest tail found shorter ih =>
      rw [after?_eq_some_iff.mp found, ← List.nil_append separator]
      apply SplitsInto.cut _ ih
      intro before after _
      exact Nat.zero_le _
  | case3 c rest tail found notShorter ih =>
      have size := congrArg List.length (after?_eq_some_iff.mp found)
      have longer : 0 < separator.length := List.length_pos_iff.mpr given
      rw [List.length_append] at size
      omega
  | case4 c rest missing ih =>
      apply ih.consFirst
      rintro ⟨tail, same⟩
      rw [after?_eq_some_iff.mpr same.symm] at missing
      cases missing

/-- **Splitting finds the pieces between the leftmost occurrences.** -/
theorem split_eq_iff {mark text : String} {parts : List String} (given : mark ≠ "") :
    split mark text = parts ↔
      SplitsInto mark.toList text.toList (parts.map String.toList) := by
  have nonempty : mark.toList ≠ [] := by simpa using given
  have splits := splitsInto_pieces nonempty text.toList
  unfold split
  constructor
  · rintro rfl
    simpa [Function.comp_def] using splits
  · intro others
    rw [splits.unique others]
    simp [Function.comp_def]

theorem consFirst_ne_nil (c : Char) (found : List (List Char)) : consFirst c found ≠ [] := by
  cases found with
  | nil => exact List.cons_ne_nil _ _
  | cons piece found => exact List.cons_ne_nil _ _

/-- A text has a first piece, also when it is empty. -/
theorem split_ne_nil (separator text : String) : split separator text ≠ [] := by
  have nonempty : pieces separator.toList text.toList ≠ [] := by
    unfold pieces
    split
    · exact List.cons_ne_nil _ _
    · split
      · split
        · exact List.cons_ne_nil _ _
        · exact consFirst_ne_nil _ _
      · exact consFirst_ne_nil _ _
  rw [split]
  exact List.map_eq_nil_iff.not.mpr nonempty

/-! ## Joining -/

theorem toList_join (mark : String) (parts : List String) :
    (join mark parts).toList = mark.toList.intercalate (parts.map String.toList) := by
  induction parts with
  | nil => rfl
  | cons part parts ih =>
      cases parts with
      | nil => simp [join]
      | cons next parts =>
          have unfolded : join mark (part :: next :: parts) =
              part ++ mark ++ join mark (next :: parts) := rfl
          rw [unfolded, String.toList_append, String.toList_append, ih]
          simp [List.intercalate_cons_cons]

theorem join_append {mark : String} {parts others : List String} (first : parts ≠ [])
    (second : others ≠ []) :
    join mark (parts ++ others) = join mark parts ++ mark ++ join mark others := by
  induction parts with
  | nil => exact absurd rfl first
  | cons part parts ih =>
      cases parts with
      | nil =>
          obtain ⟨next, later, rfl⟩ := List.exists_cons_of_ne_nil second
          rfl
      | cons next parts =>
          have unfolded : join mark (part :: next :: parts ++ others) =
              part ++ mark ++ join mark (next :: parts ++ others) := rfl
          rw [unfolded, ih (List.cons_ne_nil _ _)]
          simp only [join, String.append_assoc]

/-! ## Splitting what was joined -/

/-- After the piece the separator comes for the first time, whatever follows. -/
def Unbroken (separator piece : List Char) : Prop :=
  ∀ rest before after, piece ++ separator ++ rest = before ++ separator ++ after →
    piece.length ≤ before.length

/-- The separator after a piece is the first one if none occurs in the piece followed by all of
the separator but its last character. What comes after the separator plays no part. -/
theorem leftmost_iff (given : separator ≠ []) {piece rest : List Char} :
    (∀ before after, piece ++ separator ++ rest = before ++ separator ++ after →
      piece.length ≤ before.length) ↔ ¬ separator <:+: piece ++ separator.dropLast := by
  have longer : 0 < separator.length := List.length_pos_iff.mpr given
  constructor
  · rintro leftmost ⟨before, after, inside⟩
    have completed : piece ++ separator ++ rest =
        before ++ separator ++ (after ++ [separator.getLast given] ++ rest) := by
      nth_rewrite 1 [← List.dropLast_concat_getLast given]
      simp only [← List.append_assoc, inside]
    have late := leftmost _ _ completed
    have size := congrArg List.length inside
    simp only [List.length_append, List.length_dropLast] at size
    omega
  · intro absent before after same
    by_contra shorter
    -- An occurrence that starts inside the piece ends before the separator does.
    have early : before ++ separator <+: piece ++ separator ++ rest := ⟨after, same.symm⟩
    have inside : before ++ separator <+: piece ++ separator.dropLast := by
      apply List.prefix_of_prefix_length_le early
      · have start : separator.dropLast <+: separator ++ rest :=
          (List.dropLast_prefix separator).trans (List.prefix_append _ _)
        simpa only [List.append_assoc, List.prefix_append_right_inj] using start
      · simp only [List.length_append, List.length_dropLast]
        omega
    exact absent ((List.suffix_append before separator).isInfix.trans inside.isInfix)

theorem unbroken_iff (given : separator ≠ []) {piece : List Char} :
    Unbroken separator piece ↔ ¬ separator <:+: piece ++ separator.dropLast :=
  ⟨fun unbroken => (leftmost_iff given).mp (unbroken []),
    fun absent _ => (leftmost_iff given).mpr absent⟩

theorem Unbroken.absent {piece : List Char} (unbroken : Unbroken separator piece)
    (given : separator ≠ []) : ¬ separator <:+: piece := by
  intro inside
  apply (unbroken_iff given).mp unbroken
  exact inside.trans (List.prefix_append _ _).isInfix

/-- A piece without the character is unbroken by it. -/
theorem unbroken_of_notMem {c : Char} {piece : List Char} (absent : c ∉ piece) :
    Unbroken [c] piece := by
  rw [unbroken_iff (List.cons_ne_nil _ _)]
  simpa [List.singleton_infix_iff] using absent

namespace SplitsInto

/-- A text is its only piece if the separator does not occur in it. -/
theorem singleton_iff {chars : List Char} :
    SplitsInto separator chars [chars] ↔ ¬ separator <:+: chars := by
  refine ⟨?_, whole⟩
  intro splits
  generalize alone : [chars] = pieces at splits
  cases splits with
  | whole absent => exact absent
  | cut leftmost onward =>
      obtain rfl := (List.cons.inj alone).2
      cases onward

/-- A piece comes off in front if the separator after it is the first one. -/
theorem cons_iff (given : separator ≠ []) {piece rest next : List Char}
    {others : List (List Char)} :
    SplitsInto separator (piece ++ separator ++ rest) (piece :: next :: others) ↔
      Unbroken separator piece ∧ SplitsInto separator rest (next :: others) := by
  constructor
  · intro splits
    generalize divided : piece ++ separator ++ rest = chars at splits
    cases splits with
    | @cut _ later _ leftmost onward =>
        obtain rfl := List.append_cancel_left divided
        exact ⟨(unbroken_iff given).mpr ((leftmost_iff given).mp leftmost), onward⟩
  · rintro ⟨unbroken, onward⟩
    exact cut (unbroken rest) onward

/-- Joined pieces come apart in the same places if no piece holds the separator and every piece
but the last is unbroken. -/
theorem intercalate_iff (given : separator ≠ []) {pieces : List (List Char)}
    (nonempty : pieces ≠ []) :
    SplitsInto separator (separator.intercalate pieces) pieces ↔
      (∀ piece ∈ pieces, ¬ separator <:+: piece) ∧
        ∀ piece ∈ pieces.dropLast, Unbroken separator piece := by
  induction pieces with
  | nil => exact absurd rfl nonempty
  | cons piece pieces ih =>
      cases pieces with
      | nil => simp [singleton_iff]
      | cons next pieces =>
          rw [List.intercalate_cons_cons, cons_iff given, ih (List.cons_ne_nil _ _),
            List.dropLast_cons_cons]
          simp only [List.forall_mem_cons]
          constructor
          · rintro ⟨unbroken, absent, others⟩
            exact ⟨⟨unbroken.absent given, absent⟩, unbroken, others⟩
          · rintro ⟨⟨_, absent⟩, unbroken, others⟩
            exact ⟨unbroken, absent, others⟩

end SplitsInto

/-- **When splitting undoes joining.** No separator comes before its place. -/
theorem split_join_iff {mark : String} {parts : List String} (given : mark ≠ "")
    (nonempty : parts ≠ []) :
    split mark (join mark parts) = parts ↔
      (∀ part ∈ parts, ¬ mark.toList <:+: part.toList) ∧
        ∀ part ∈ parts.dropLast, Unbroken mark.toList part.toList := by
  rw [split_eq_iff given, toList_join, SplitsInto.intercalate_iff]
  · simp [← List.map_dropLast]
  · simpa using given
  · simpa using nonempty

/-- **Splitting undoes joining**, when no separator comes before its place. -/
theorem split_join {mark : String} {parts : List String} (given : mark ≠ "") (nonempty : parts ≠ [])
    (unbroken : ∀ part ∈ parts, Unbroken mark.toList part.toList) :
    split mark (join mark parts) = parts := by
  rw [split_join_iff given nonempty]
  constructor
  · intro part member
    exact (unbroken part member).absent (by simpa using given)
  · intro part member
    exact unbroken part (List.mem_of_mem_dropLast member)

/-- **Joining undoes splitting.** -/
theorem join_split {mark : String} (given : mark ≠ "") (text : String) :
    join mark (split mark text) = text := by
  have splits := (split_eq_iff given).mp (Eq.refl (split mark text))
  rw [← String.toList_inj, toList_join, splits.intercalate_eq]

end CyclicCalls.Text
