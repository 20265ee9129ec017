import CyclicCalls.Disk
import Mathlib.Data.List.Basic
import Mathlib.Logic.Function.Basic
/-!
# Written files

Writing a file changes a tree in one place. `FileTree.content?` says what the file at the end
of given names holds. After a write the contents are as before except at the place of the
path, where they are what was written (`Writable.content?_put`). Directories stay
directories, so the path still leads to its place, and reading it gives back what was written
(`Writable.read_put`).

Whether a path can be written does not depend on what is written: it is written if it leads to
a place (`Writable.write`), and only then (`exists_writable_of_write`). On a disk the system has to
allow it too (`Disk.Writable`).
-/

set_option autoImplicit false

namespace CyclicCalls

namespace FileTree

/-! ## Contents and directories -/

/-- What the file at the end of the given names holds. -/
def content? (tree : FileTree) (names : List String) : Option Source.Bytes :=
  match tree.at? names with
  | some (.file content) => some content
  | _ => none

/-- Whether a directory stands at the end of the given names. -/
def directoryAt (tree : FileTree) (names : List String) : Bool :=
  (tree.at? names).any isDirectory

theorem content?_eq_some_iff {tree : FileTree} {names : List String} {content : Source.Bytes} :
    tree.content? names = some content ↔ tree.at? names = some (.file content) := by
  unfold content?
  rcases tree.at? names with _ | ⟨found⟩ | entries <;> simp

theorem directoryAt_iff {tree : FileTree} {names : List String} :
    tree.directoryAt names = true ↔ ∃ entries, tree.at? names = some (.directory entries) := by
  unfold directoryAt
  rcases tree.at? names with _ | ⟨found⟩ | entries <;> simp [isDirectory, isFile]

@[simp] theorem content?_file_cons (content : Source.Bytes) (name : String) (names : List String) :
    (file content).content? (name :: names) = none := rfl

@[simp] theorem content?_directory_nil (entries : List (String × FileTree)) :
    (directory entries).content? [] = none := rfl

@[simp] theorem content?_empty (names : List String) : empty.content? names = none := by
  cases names with
  | nil => rfl
  | cons name names => rfl

/-- What is missing holds as much as an empty directory. -/
theorem content?_cons (tree : FileTree) (name : String) (names : List String) :
    tree.content? (name :: names) = ((tree.entry? name).getD empty).content? names := by
  cases found : tree.entry? name with
  | none =>
      rw [Option.getD_none, content?_empty]
      simp [content?, at?, found]
  | some child => simp [content?, at?, found]

/-- What stands at the end of a way stands at the end of its second part. -/
theorem at?_append (tree : FileTree) (first second : List String) :
    tree.at? (first ++ second) = (tree.at? first).bind (fun child => child.at? second) := by
  induction first generalizing tree with
  | nil => rfl
  | cons name first ih =>
      simp only [List.cons_append, at?]
      cases tree.entry? name with
      | none => rfl
      | some child => exact ih child

/-- Nothing but directories stands above something. -/
theorem directoryAt_of_append {tree found : FileTree} {above : List String} {name : String}
    {rest : List String} (stands : tree.at? (above ++ name :: rest) = some found) :
    tree.directoryAt above = true := by
  rw [at?_append] at stands
  cases standing : tree.at? above with
  | none => simp [standing] at stands
  | some child =>
      cases child with
      | directory entries => exact directoryAt_iff.mpr ⟨entries, standing⟩
      | file content => simp [standing, at?, entry?] at stands

theorem directoryAt_above {tree : FileTree} {above names : List String}
    (stands : tree.directoryAt names = true) (under : above <+: names) :
    tree.directoryAt above = true := by
  obtain ⟨rest, rfl⟩ := under
  cases rest with
  | nil => rwa [List.append_nil] at stands
  | cons name rest =>
      obtain ⟨entries, found⟩ := directoryAt_iff.mp stands
      exact directoryAt_of_append found

theorem content?_eq_none_of_directoryAt {tree : FileTree} {names : List String}
    (stands : tree.directoryAt names = true) : tree.content? names = none := by
  obtain ⟨entries, found⟩ := directoryAt_iff.mp stands
  simp [content?, found]

/-! ## Putting a file at a place -/

theorem lookup_putEntry (name other : String) (child : FileTree)
    (entries : List (String × FileTree)) :
    (putEntry name child entries).lookup other =
      if other = name then some child else entries.lookup other := by
  induction entries with
  | nil =>
      by_cases same : other = name
      · simp [putEntry, same]
      · simp [putEntry, List.lookup_cons, same, beq_false_of_ne same]
  | cons entry entries ih =>
      obtain ⟨first, tree⟩ := entry
      by_cases here : first = name
      · subst here
        by_cases same : other = first
        · simp [putEntry, same]
        · simp [putEntry, List.lookup_cons, same, beq_false_of_ne same]
      · by_cases same : other = first
        · subst same
          simp [putEntry, here]
        · simp [putEntry, List.lookup_cons, here, beq_false_of_ne same, ih]

/-- **Putting a file at a place changes the contents at that place alone**, when no file is on
the way and nothing stands below the place. -/
theorem content?_put (content : Source.Bytes) (place : List String) (tree : FileTree)
    (clear : ∀ above, above <+: place → above ≠ place → tree.content? above = none)
    (bare : ∀ below, place <+: below → below ≠ place → tree.content? below = none) :
    (tree.put (.file content) place).content? =
      Function.update tree.content? place (some content) := by
  induction place generalizing tree with
  | nil =>
      funext names
      cases names with
      | nil => simp [put, content?, at?]
      | cons name names => simp [put, bare (name :: names) (List.nil_prefix) (by simp)]
  | cons name place ih =>
      have top : tree.content? [] = none := clear [] List.nil_prefix (by simp)
      cases tree with
      | file found => simp [content?, at?] at top
      | directory entries =>
          have inner := ih ((entries.lookup name).getD empty)
            (by
              intro above under apart
              have := clear (name :: above) (List.cons_prefix_cons.mpr ⟨rfl, under⟩)
                (by simpa using apart)
              rwa [content?_cons] at this)
            (by
              intro below beyond apart
              have := bare (name :: below) (List.cons_prefix_cons.mpr ⟨rfl, beyond⟩)
                (by simpa using apart)
              rwa [content?_cons] at this)
          funext names
          cases names with
          | nil => simp [put]
          | cons other names =>
              by_cases same : other = name
              · subst same
                rw [content?_cons]
                simp only [put, entry?, lookup_putEntry, if_true, Option.getD_some, inner]
                by_cases equal : names = place
                · simp [equal]
                · simp [equal, content?_cons, entry?]
              · rw [content?_cons]
                simp [put, entry?, lookup_putEntry, same, content?_cons]

/-- Directories beside and above a place stay directories. -/
theorem directoryAt_put {tree leaf : FileTree} {place names : List String}
    (stands : tree.directoryAt names = true) (apart : ¬ place <+: names) :
    (tree.put leaf place).directoryAt names = true := by
  induction place generalizing tree names with
  | nil => exact absurd List.nil_prefix apart
  | cons name place ih =>
      cases tree with
      | file content => exact stands
      | directory entries =>
          cases names with
          | nil => rfl
          | cons other names =>
              by_cases same : other = name
              · subst same
                have below : ¬ place <+: names := by
                  simpa [List.cons_prefix_cons] using apart
                simp only [directoryAt, put, at?, entry?, lookup_putEntry, if_true,
                  Option.bind_some] at stands ⊢
                cases found : entries.lookup other with
                | none => simp [found] at stands
                | some child =>
                    rw [found] at stands
                    exact ih stands below
              · simpa [directoryAt, put, at?, entry?, lookup_putEntry, same] using stands

/-- A way through directories stays one, when directories stay directories. -/
theorem resolve_of_directories {tree later : FileTree} {anchor : Anchor}
    (kept : ∀ names, tree.directoryAt names = true → later.directoryAt names = true)
    {here parts names : List String} (resolved : tree.resolve anchor here parts = .ok names) :
    later.resolve anchor here parts = .ok names := by
  induction parts generalizing here with
  | nil => exact resolved
  | cons part parts ih =>
      unfold resolve at resolved ⊢
      cases found : tree.at? here with
      | none => simp [found] at resolved
      | some standing =>
          cases standing with
          | file content => simp [found] at resolved
          | directory entries =>
              obtain ⟨others, still⟩ := directoryAt_iff.mp
                (kept here (directoryAt_iff.mpr ⟨entries, found⟩))
              rw [found] at resolved
              rw [still]
              exact ih resolved

/-- What stands below the end of a way through directories is one part further. -/
theorem resolve_concat {tree : FileTree} {anchor : Anchor} {here parts names : List String}
    (resolved : tree.resolve anchor here parts = .ok names)
    (stands : tree.directoryAt names = true) (part : String) :
    tree.resolve anchor here (parts ++ [part]) = .ok (follow anchor names part) := by
  induction parts generalizing here with
  | nil =>
      cases resolved
      obtain ⟨entries, found⟩ := directoryAt_iff.mp stands
      simp [resolve, found]
  | cons first parts ih =>
      rw [List.cons_append]
      unfold resolve at resolved ⊢
      cases found : tree.at? here with
      | none => simp [found] at resolved
      | some standing =>
          cases standing with
          | file content => simp [found] at resolved
          | directory entries =>
              rw [found] at resolved
              exact ih resolved

/-! ## The tree below an anchor -/

theorem content?_under (tree : FileTree) (anchor : Anchor) (names : List String) :
    tree.content? (anchorNames anchor ++ names) = (tree.under anchor).content? names := by
  cases anchor with
  | here => rfl
  | root => exact content?_cons tree _ names
  | doubleRoot => exact content?_cons tree _ names

/-- The name of an anchor is the first on all ways below it. -/
theorem anchorNames_lead {anchor : Anchor} {above place : List String} (further : above ≠ [])
    (under : above <+: anchorNames anchor ++ place) : anchorNames anchor <+: above := by
  cases above with
  | nil => exact absurd rfl further
  | cons name above =>
      cases anchor with
      | here => exact List.nil_prefix
      | root => simp_all [anchorNames, List.cons_prefix_cons]
      | doubleRoot => simp_all [anchorNames, List.cons_prefix_cons]

/-- Putting something below an anchor puts it into the tree below the anchor. -/
theorem under_put (entries : List (String × FileTree)) (leaf : FileTree) (anchor : Anchor)
    (place : List String) :
    ((directory entries).put leaf (anchorNames anchor ++ place)).under anchor =
      ((directory entries).under anchor).put leaf place := by
  cases anchor with
  | here => rfl
  | root => simp [anchorNames, put, under, entry?, lookup_putEntry]
  | doubleRoot => simp [anchorNames, put, under, entry?, lookup_putEntry]

/-! ## Writing at a path -/

/-- A path leads to a place where a file can be written: its directory is there, and no
directory is in the place. -/
inductive Writable (tree : FileTree) : Path → List String → Prop
  | intro {anchor : Anchor} {before names : List String} {last : String} (onward : last ≠ "..")
      (resolved : (tree.under anchor).resolve anchor [] before = .ok names)
      (directory : (tree.under anchor).directoryAt names = true)
      (vacant : (tree.under anchor).directoryAt (names ++ [last]) = false) :
      Writable tree ⟨anchor, before ++ [last]⟩ (anchorNames anchor ++ (names ++ [last]))

theorem directoryAt_concat {tree : FileTree} {names : List String}
    {entries : List (String × FileTree)} (stands : tree.at? names = some (.directory entries))
    (last : String) :
    tree.directoryAt (names ++ [last]) = (entries.lookup last).any isDirectory := by
  rw [directoryAt, at?_append, stands, Option.bind_some, at?, entry?]
  cases entries.lookup last with
  | none => rfl
  | some child => rfl

/-- Where a file can be written, it is written, whatever it holds. -/
theorem Writable.write {tree : FileTree} {path : Path} {place : List String}
    (writable : tree.Writable path place) (content : Source.Bytes) :
    tree.write path content = .ok (tree.put (.file content) place) := by
  obtain ⟨onward, resolved, stands, vacant⟩ := writable
  obtain ⟨entries, found⟩ := directoryAt_iff.mp stands
  rw [directoryAt_concat found] at vacant
  simp [FileTree.write, resolved, found, onward, vacant]

/-- A path can be written only where its directory is and no directory is in the place. -/
theorem exists_writable_of_write {tree later : FileTree} {path : Path} {content : Source.Bytes}
    (written : tree.write path content = .ok later) : ∃ place, tree.Writable path place := by
  obtain ⟨anchor, parts⟩ := path
  rcases List.eq_nil_or_concat' parts with rfl | ⟨before, last, rfl⟩
  · cases written
  · simp only [FileTree.write, List.getLast?_concat, List.dropLast_concat] at written
    cases resolved : (tree.under anchor).resolve anchor [] before with
    | error error => simp [resolved] at written
    | ok names =>
        simp only [resolved] at written
        cases found : (tree.under anchor).at? names with
        | none => simp [found] at written
        | some standing =>
            cases standing with
            | file content => simp [found] at written
            | directory entries =>
                by_cases refused :
                    (last == ".." || (entries.lookup last).any isDirectory) = true
                · simp [found, refused] at written
                · obtain ⟨onward, vacant⟩ : last ≠ ".." ∧
                      (entries.lookup last).any isDirectory = false := by simpa using refused
                  exact ⟨_, .intro onward resolved (directoryAt_iff.mpr ⟨entries, found⟩)
                    ((directoryAt_concat found last).trans vacant)⟩

/-- **After a write the contents are as before except at the place of the path.** -/
theorem Writable.content?_put {entries : List (String × FileTree)} {path : Path}
    {place : List String} (writable : (directory entries).Writable path place)
    (content : Source.Bytes) :
    ((directory entries).put (.file content) place).content? =
      Function.update (directory entries).content? place (some content) := by
  obtain @⟨anchor, before, names, last, onward, resolved, stands, vacant⟩ := writable
  apply FileTree.content?_put
  · intro above under apart
    by_cases top : above = []
    · simp [top]
    · obtain ⟨rest, rfl⟩ := anchorNames_lead top under
      have short : rest <+: names := by
        have within : rest <+: names ++ [last] := (List.prefix_append_right_inj _).mp under
        exact (List.prefix_concat_iff.mp within).resolve_left (fun same => apart (by rw [same]))
      rw [content?_under]
      exact content?_eq_none_of_directoryAt (directoryAt_above stands short)
  · rintro below ⟨more, rfl⟩ apart
    rw [List.append_assoc, content?_under]
    cases more with
    | nil => simp at apart
    | cons name more =>
        cases found : ((directory entries).under anchor).content?
            (names ++ [last] ++ name :: more) with
        | none => rfl
        | some held =>
            -- Something below the place would make it a directory.
            have filled := directoryAt_of_append (content?_eq_some_iff.mp found)
            rw [vacant] at filled
            cases filled

/-- **A path that was written reads back what was written.** -/
theorem Writable.read_put {entries : List (String × FileTree)} {path : Path}
    {place : List String} (writable : (directory entries).Writable path place)
    (content : Source.Bytes) :
    ((directory entries).put (.file content) place).read path = .ok content := by
  have held := congrFun (writable.content?_put content) place
  rw [Function.update_self] at held
  obtain @⟨anchor, before, names, last, onward, resolved, stands, vacant⟩ := writable
  rw [content?_under, content?_eq_some_iff, under_put] at held
  have kept : ∀ others, ((directory entries).under anchor).directoryAt others = true →
      (((directory entries).under anchor).put (.file content) (names ++ [last])).directoryAt
        others = true := by
    intro others directory
    apply directoryAt_put directory
    intro below
    have filled := directoryAt_above directory below
    rw [vacant] at filled
    cases filled
  have leads := resolve_concat (resolve_of_directories kept resolved) (kept names stands) last
  have arrives : follow anchor names last = names ++ [last] := by simp [follow, onward]
  rw [arrives] at leads
  simp [read, locate, under_put, leads, held]

end FileTree

/-! ## Disks -/

namespace Disk

/-- The system lets a file be written at a path, which leads to a place. -/
structure Writable (disk : Disk) (path : Path) (place : List String) : Prop where
  allowed : disk.refusal? .write path = none
  leads : disk.files.Writable path place

theorem Writable.write {disk : Disk} {path : Path} {place : List String}
    (writable : disk.Writable path place) (content : Source.Bytes) :
    disk.write path content = .ok (disk.files.put (.file content) place) := by
  rw [Disk.write, writable.allowed]
  exact writable.leads.write content

theorem exists_writable_of_write {disk : Disk} {later : FileTree} {path : Path}
    {content : Source.Bytes} (written : disk.write path content = .ok later) :
    ∃ place, disk.Writable path place := by
  unfold Disk.write at written
  cases allowed : disk.refusal? .write path with
  | some refusal => simp [allowed] at written
  | none =>
      rw [allowed] at written
      obtain ⟨place, leads⟩ := FileTree.exists_writable_of_write written
      exact ⟨place, allowed, leads⟩

end Disk

end CyclicCalls
