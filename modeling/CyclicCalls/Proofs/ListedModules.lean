import CyclicCalls.Proofs.GuardedAnalysis
import CyclicCalls.Proofs.WrittenFiles
/-!
# Listed modules

The modules below a source root are found by a walk over its directories. Which files are found
can be said without the walk. A file is listed when it has the name of a Python file, no directory
on the way to it has an excluded name, and it is not the package file of the root (`Listed`). Its
place gives the name under which it is listed (`Describes`).

The walk is a recursion over the tree, and the file at a place is looked up name by name. The two
meet in the entries of a directory: a file that is searched for below a directory is one of its
files, or is searched for below one of its subdirectories (`searched_directory_iff`), and the walk
goes on in the same way (`mem_modulesIn_directory`). This needs that no directory has two entries
of one name (`WellNamed`), since a look-up finds only the first of them.

Main statement: `mem_modules_iff`.
-/

set_option autoImplicit false

namespace CyclicCalls

namespace FileTree

/-! ## Trees -/

/-- What holds of files, and of a directory when it holds of its entries, holds of all trees. -/
@[elab_as_elim]
theorem tree_induction {motive : FileTree → Prop} (file : ∀ content, motive (.file content))
    (directory : ∀ entries : List (String × FileTree), (∀ entry ∈ entries, motive entry.2) →
      motive (.directory entries))
    (tree : FileTree) : motive tree := by
  refine @FileTree.rec motive (fun entries => ∀ entry ∈ entries, motive entry.2)
    (fun entry => motive entry.2) file directory ?_ ?_ ?_ tree
  · intro entry member
    cases member
  · intro first entries here later entry member
    rcases List.mem_cons.mp member with rfl | among
    · exact here
    · exact later entry among
  · intro name child here
    exact here

/-- No directory has two entries of one name. -/
inductive WellNamed : FileTree → Prop
  | file (content : Source.Bytes) : WellNamed (.file content)
  | directory {entries : List (String × FileTree)} (distinct : (entries.map (·.1)).Nodup)
      (below : ∀ entry ∈ entries, WellNamed entry.2) : WellNamed (.directory entries)

@[simp] theorem wellNamed_file (content : Source.Bytes) : (file content).WellNamed :=
  .file content

@[simp] theorem wellNamed_directory_iff {entries : List (String × FileTree)} :
    (directory entries).WellNamed ↔
      (entries.map (·.1)).Nodup ∧ ∀ entry ∈ entries, entry.2.WellNamed := by
  constructor
  · intro wellNamed
    cases wellNamed with
    | directory distinct below => exact ⟨distinct, below⟩
  · rintro ⟨distinct, below⟩
    exact .directory distinct below

/-- A file below a directory is a file below one of its entries. -/
theorem content?_directory_iff {entries : List (String × FileTree)}
    (distinct : (entries.map (·.1)).Nodup) {name : String} {names : List String}
    {content : Source.Bytes} :
    (directory entries).content? (name :: names) = some content ↔
      ∃ child, (name, child) ∈ entries ∧ child.content? names = some content := by
  rw [content?_cons, entry?]
  constructor
  · intro found
    cases entry : entries.lookup name with
    | none => simp [entry] at found
    | some child =>
        rw [entry, Option.getD_some] at found
        exact ⟨child, mem_of_lookup entry, found⟩
  · rintro ⟨child, member, found⟩
    rw [lookup_of_mem distinct member, Option.getD_some, found]

theorem content?_nil_iff {tree : FileTree} {content : Source.Bytes} :
    tree.content? [] = some content ↔ tree = .file content := by
  cases tree with
  | file found => simp [content?, at?]
  | directory entries => simp

end FileTree

namespace Path

variable (path : Path)

theorem descend_nil : path.descend [] = path := by
  simp [descend]

theorem child_descend (name : String) (names : List String) :
    (path.child name).descend names = path.descend (name :: names) := by
  simp [child, descend]

variable {path}

theorem descend_injective {names others : List String}
    (same : path.descend names = path.descend others) : names = others :=
  List.append_cancel_left (congrArg Path.parts same)

end Path

namespace Solution

/-! ## What is listed, and how -/

/-- A file stands at the end of the directories, none of which has an excluded name. -/
structure Searched (tree : FileTree) (directories : List String) (name : String) : Prop where
  stands : ∃ content, tree.content? (directories ++ [name]) = some content
  searched : ∀ directory ∈ directories, isExcluded directory = false

/-- The files that are listed: the Python files that are searched for, without the package file
of the root. -/
structure Listed (root : FileTree) (directories : List String) (name : String) : Prop
    extends Searched root directories name where
  python : isPythonFile name = true
  notRoot : ¬ (directories = [] ∧ name = packageFile)

/-- How a file of a directory is listed. The directory has a path and a list of names that lead
to it from the source root. -/
structure Describes (directory : Path) (parts : List String) (name : String) (file : ModuleFile) :
    Prop where
  path : file.path = directory.child name
  isPackage : file.isPackage = true ↔ name = packageFile
  ofPackage : name = packageFile → file.moduleName = Text.join "." parts
  ofModule : name ≠ packageFile → ∃ stem, name = stem ++ ".py" ∧
    file.moduleName = Text.join "." (parts ++ [stem])

/-- The stem of a Python file is its name without the ending. -/
theorem eq_append_of_pythonStem? {name stem : String} (found : pythonStem? name = some stem) :
    name = stem ++ ".py" := by
  simp only [pythonStem?, Option.ite_none_right_eq_some, Bool.and_eq_true, Option.some.injEq]
    at found
  obtain ⟨⟨ends, _⟩, rfl⟩ := found
  obtain ⟨lead, whole⟩ := List.isSuffixOf_iff_suffix.mp ends
  have size : name.length - 3 = lead.length := by
    rw [← String.length_toList, ← whole, List.length_append]
    exact Nat.add_sub_cancel lead.length 3
  rw [← String.toList_inj, String.toList_append, String.toList_ofList, size, ← whole,
    List.take_left]

/-- A file is listed in one way. -/
theorem Describes.unique {directory : Path} {parts : List String} {name : String}
    {file other : ModuleFile} (first : Describes directory parts name file)
    (second : Describes directory parts name other) : file = other := by
  obtain ⟨moduleName, path, isPackage⟩ := file
  obtain ⟨otherName, otherPath, otherPackage⟩ := other
  have paths : path = otherPath := first.path.trans second.path.symm
  have packages : isPackage = otherPackage := by
    rw [Bool.eq_iff_iff]
    exact first.isPackage.trans second.isPackage.symm
  have names : moduleName = otherName := by
    by_cases package : name = packageFile
    · exact (first.ofPackage package).trans (second.ofPackage package).symm
    · obtain ⟨stem, ends, named⟩ := first.ofModule package
      obtain ⟨otherStem, otherEnds, otherNamed⟩ := second.ofModule package
      obtain rfl : stem = otherStem := (String.append_left_inj ".py").mp (ends.symm.trans otherEnds)
      exact named.trans otherNamed.symm
  rw [names, paths, packages]

theorem describes_package (directory : Path) (parts : List String) :
    Describes directory parts packageFile
      ⟨Text.join "." parts, directory.child packageFile, true⟩ :=
  ⟨rfl, by simp, fun _ => rfl, fun other => absurd rfl other⟩

theorem describes_module {name stem : String} (found : pythonStem? name = some stem)
    (plain : name ≠ packageFile) (directory : Path) (parts : List String) :
    Describes directory parts name
      ⟨Text.join "." (parts ++ [stem]), directory.child name, false⟩ :=
  ⟨rfl, by simp [plain], fun same => absurd same plain,
    fun _ => ⟨stem, eq_append_of_pythonStem? found, rfl⟩⟩

/-- **A file of a directory is a module if it is a Python file**, the package file of the root
apart. -/
theorem moduleOf?_eq_some_iff {directory : Path} {parts : List String} {name : String}
    {file : ModuleFile} :
    moduleOf? directory parts name = some file ↔
      isPythonFile name = true ∧ ¬ (parts = [] ∧ name = packageFile) ∧
        Describes directory parts name file := by
  by_cases package : name = packageFile
  · subst package
    have python : isPythonFile packageFile = true := by decide +kernel
    by_cases top : parts = []
    · simp [moduleOf?, top]
    · have found : moduleOf? directory parts packageFile =
          some ⟨Text.join "." parts, directory.child packageFile, true⟩ := by
        simp [moduleOf?, top]
      rw [found, Option.some.injEq]
      constructor
      · rintro rfl
        exact ⟨python, fun root => top root.1, describes_package directory parts⟩
      · rintro ⟨_, _, other⟩
        exact (describes_package directory parts).unique other
  · have stemmed : moduleOf? directory parts name = (pythonStem? name).map (fun stem =>
        ⟨Text.join "." (parts ++ [stem]), directory.child name, false⟩) := by
      simp [moduleOf?, package]
    rw [stemmed, Option.map_eq_some_iff, isPythonFile, Option.isSome_iff_exists]
    constructor
    · rintro ⟨stem, found, rfl⟩
      exact ⟨⟨stem, found⟩, fun root => package root.2,
        describes_module found package directory parts⟩
    · rintro ⟨⟨stem, found⟩, _, other⟩
      exact ⟨stem, found, (describes_module found package directory parts).unique other⟩

/-! ## Members of the walk -/

/-- The subdirectories that are searched, each with its modules. -/
theorem modulesBelow_eq (directory : Path) (parts : List String)
    (entries : List (String × FileTree)) :
    modulesBelow directory parts entries =
      (entries.filter (fun entry => entry.2.isDirectory && !isExcluded entry.1)).map (fun entry =>
        (entry.1, modulesIn (directory.child entry.1) (parts ++ [entry.1]) entry.2)) := by
  induction entries with
  | nil => rw [modulesBelow, List.filter_nil, List.map_nil]
  | cons entry entries ih =>
      obtain ⟨name, child⟩ := entry
      rw [modulesBelow, List.filter_cons, ih]
      split
      · rfl
      · rfl

theorem byName_perm {α : Type} (entries : List (String × α)) : (byName entries).Perm entries :=
  List.mergeSort_perm entries _

theorem mem_byName {α : Type} {entries : List (String × α)} {entry : String × α} :
    entry ∈ byName entries ↔ entry ∈ entries :=
  (byName_perm entries).mem_iff

theorem mem_ownModules_iff {directory : Path} {parts : List String}
    {entries : List (String × FileTree)} {file : ModuleFile} :
    file ∈ ownModules directory parts entries ↔
      ∃ name content, (name, .file content) ∈ entries ∧
        moduleOf? directory parts name = some file := by
  rw [ownModules, List.mem_filterMap]
  constructor
  · rintro ⟨⟨name, child⟩, sorted, found⟩
    obtain ⟨member, isFile⟩ := List.mem_filter.mp (mem_byName.mp sorted)
    cases child with
    | file content => exact ⟨name, content, member, found⟩
    | directory inner => exact absurd isFile Bool.false_ne_true
  · rintro ⟨name, content, member, found⟩
    exact ⟨(name, .file content), mem_byName.mpr (List.mem_filter.mpr ⟨member, rfl⟩), found⟩

/-- The walk goes through the files of a directory, and through those of its subdirectories. -/
theorem mem_modulesIn_directory {directory : Path} {parts : List String}
    {entries : List (String × FileTree)} {file : ModuleFile} :
    file ∈ modulesIn directory parts (.directory entries) ↔
      (∃ name content, (name, .file content) ∈ entries ∧
        moduleOf? directory parts name = some file) ∨
      ∃ name child, (name, child) ∈ entries ∧ isExcluded name = false ∧
        file ∈ modulesIn (directory.child name) (parts ++ [name]) child := by
  rw [modulesIn, List.mem_append, mem_ownModules_iff, List.mem_flatMap, modulesBelow_eq]
  apply or_congr Iff.rfl
  constructor
  · rintro ⟨inside, sorted, among⟩
    obtain ⟨⟨name, child⟩, searched, rfl⟩ := List.mem_map.mp (mem_byName.mp sorted)
    obtain ⟨member, accepted⟩ := List.mem_filter.mp searched
    simp only [Bool.and_eq_true, Bool.not_eq_true'] at accepted
    exact ⟨name, child, member, accepted.2, among⟩
  · rintro ⟨name, child, member, notExcluded, among⟩
    have isDirectory : child.isDirectory = true := by
      cases child with
      | file content => simp [modulesIn] at among
      | directory inner => rfl
    refine ⟨_, mem_byName.mpr (List.mem_map_of_mem (List.mem_filter.mpr ⟨member, ?_⟩)), among⟩
    simp [isDirectory, notExcluded]

theorem not_searched_file {content : Source.Bytes} {directories : List String} {name : String} :
    ¬ Searched (.file content) directories name := by
  rintro ⟨⟨found, stands⟩, _⟩
  cases directories with
  | nil => cases stands
  | cons first rest => cases stands

/-- The files searched for in a directory are its own and those of its subdirectories. -/
theorem searched_directory_iff {entries : List (String × FileTree)}
    (distinct : (entries.map (·.1)).Nodup) {directories : List String} {name : String} :
    Searched (.directory entries) directories name ↔
      (directories = [] ∧ ∃ content, (name, .file content) ∈ entries) ∨
      ∃ first rest child, directories = first :: rest ∧ (first, child) ∈ entries ∧
        isExcluded first = false ∧ Searched child rest name := by
  cases directories with
  | nil =>
      constructor
      · rintro ⟨⟨content, stands⟩, _⟩
        obtain ⟨child, member, found⟩ := (FileTree.content?_directory_iff distinct).mp stands
        rw [FileTree.content?_nil_iff] at found
        exact .inl ⟨rfl, content, found ▸ member⟩
      · rintro (⟨_, content, member⟩ | ⟨first, rest, child, same, _⟩)
        · refine ⟨⟨content, ?_⟩, fun _ none => nomatch none⟩
          exact (FileTree.content?_directory_iff distinct).mpr ⟨_, member, rfl⟩
        · cases same
  | cons first rest =>
      constructor
      · rintro ⟨⟨content, stands⟩, searched⟩
        obtain ⟨child, member, found⟩ := (FileTree.content?_directory_iff distinct).mp stands
        exact .inr ⟨first, rest, child, rfl, member, searched first List.mem_cons_self,
          ⟨content, found⟩, fun other among => searched other (List.mem_cons_of_mem _ among)⟩
      · rintro (⟨same, _⟩ | ⟨_, _, child, same, member, notExcluded, ⟨content, found⟩, searched⟩)
        · cases same
        · obtain ⟨rfl, rfl⟩ := List.cons.inj same
          refine ⟨⟨content, ?_⟩, List.forall_mem_cons.mpr ⟨notExcluded, searched⟩⟩
          exact (FileTree.content?_directory_iff distinct).mpr ⟨child, member, found⟩

/-- **The walk finds the files that are searched for**, as far as they are modules. -/
theorem mem_modulesIn_iff {tree : FileTree} (wellNamed : tree.WellNamed) {directory : Path}
    {parts : List String} {file : ModuleFile} :
    file ∈ modulesIn directory parts tree ↔
      ∃ directories name, Searched tree directories name ∧
        moduleOf? (directory.descend directories) (parts ++ directories) name = some file := by
  induction tree using FileTree.tree_induction generalizing directory parts with
  | file content =>
      rw [modulesIn]
      constructor
      · intro none
        cases none
      · rintro ⟨directories, name, searched, _⟩
        exact absurd searched not_searched_file
  | directory entries ih =>
      obtain ⟨distinct, below⟩ := FileTree.wellNamed_directory_iff.mp wellNamed
      rw [mem_modulesIn_directory]
      constructor
      · rintro (⟨name, content, member, found⟩ | ⟨first, child, member, notExcluded, among⟩)
        · refine ⟨[], name, ?_, ?_⟩
          · exact (searched_directory_iff distinct).mpr (.inl ⟨rfl, content, member⟩)
          · rw [Path.descend_nil, List.append_nil, found]
        · obtain ⟨rest, name, searched, found⟩ := (ih _ member (below _ member)).mp among
          refine ⟨first :: rest, name, ?_, ?_⟩
          · exact (searched_directory_iff distinct).mpr
              (.inr ⟨first, rest, child, rfl, member, notExcluded, searched⟩)
          · rw [← Path.child_descend, List.append_cons, found]
      · rintro ⟨directories, name, searched, found⟩
        rcases (searched_directory_iff distinct).mp searched with
          ⟨rfl, content, member⟩ | ⟨first, rest, child, rfl, member, notExcluded, inside⟩
        · rw [Path.descend_nil, List.append_nil] at found
          exact .inl ⟨name, content, member, found⟩
        · rw [← Path.child_descend, List.append_cons] at found
          exact .inr ⟨first, child, member, notExcluded,
            (ih _ member (below _ member)).mpr ⟨rest, name, inside, found⟩⟩

/-! ## The list -/

mutual

/-- A walk sees the whole of a tree where nothing is refused. -/
theorem visible_ofFiles (files : FileTree) : (tree : FileTree) → (path : Path) →
    (Disk.ofFiles files).visible path tree = tree
  | .file content, path => by
      rw [Disk.visible]
  | .directory entries, path => by
      rw [Disk.visible]
      exact congrArg FileTree.directory (visibleEntries_ofFiles files entries path)

theorem visibleEntries_ofFiles (files : FileTree) : (entries : List (String × FileTree)) →
    (path : Path) → (Disk.ofFiles files).visibleEntries path entries = entries
  | [], path => by
      rw [Disk.visibleEntries]
  | (name, child) :: entries, path => by
      rw [Disk.visibleEntries, visible_ofFiles files child (path.child name),
        visibleEntries_ofFiles files entries path]

end

section Located

variable {tree root : FileTree} {sourceRoot : Path} (located : tree.locate? sourceRoot = some root)

include located

theorem modules_eq :
    modules tree sourceRoot = (modulesIn sourceRoot [] root).mergeSort
      (fun file other => Text.le file.moduleName other.moduleName) := by
  have same : (tree : Disk).files.locate? sourceRoot = some root := located
  simp only [modules, same, visible_ofFiles]

theorem modules_perm : (modules tree sourceRoot).Perm (modulesIn sourceRoot [] root) := by
  rw [modules_eq located]
  exact List.mergeSort_perm _ _

/-- The files that are searched for are listed, as far as they are modules. -/
theorem mem_modules_iff_searched (wellNamed : root.WellNamed) {file : ModuleFile} :
    file ∈ modules tree sourceRoot ↔
      ∃ directories name, Searched root directories name ∧
        moduleOf? (sourceRoot.descend directories) directories name = some file := by
  rw [(modules_perm located).mem_iff, mem_modulesIn_iff wellNamed]
  rfl

/-- **The files that are listed.** -/
theorem mem_modules_iff (wellNamed : root.WellNamed) {file : ModuleFile} :
    file ∈ modules tree sourceRoot ↔
      ∃ directories name, Listed root directories name ∧
        Describes (sourceRoot.descend directories) directories name file := by
  rw [mem_modules_iff_searched located wellNamed]
  constructor
  · rintro ⟨directories, name, searched, found⟩
    obtain ⟨python, notRoot, described⟩ := moduleOf?_eq_some_iff.mp found
    exact ⟨directories, name, ⟨searched, python, notRoot⟩, described⟩
  · rintro ⟨directories, name, listed, described⟩
    exact ⟨directories, name, listed.toSearched,
      moduleOf?_eq_some_iff.mpr ⟨listed.python, listed.notRoot, described⟩⟩

end Located

end Solution

end CyclicCalls
