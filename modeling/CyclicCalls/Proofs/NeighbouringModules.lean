import CyclicCalls.Proofs.ListedModules
import CyclicCalls.Proofs.RelativeImports
/-!
# Neighbouring modules

A relative import is read as a way through directories: its dots lead to a directory around the
document, and its module part goes on from there to a file. It is resolved on names alone: from
the module name to the package, from the package by taking parts off it, and from there to a
module name by joining. The two agree if the names of directories and files have no dot of their
own (`Undotted`), because then the parts of a package are the directories of the document
(`packageParts_document`).

There is one exception. A package file is listed under the name of its directory, so an import
that spells out `__init__` leads to a listed file and names no module
(`spelled_package_file_missed`). Without dots in the names, a module name tells the file, except
that a module may stand beside a package of its name (`Beside`).

Main statement: `relative_imports_land_on_neighbours`.
-/

set_option autoImplicit false

namespace CyclicCalls.Solution

open Index

/-- The document that a listed file is read as. -/
def ModuleFile.document (file : ModuleFile) : Document where
  path := file.path
  moduleName := file.moduleName
  isPackage := file.isPackage

/-- These are the documents of a project. -/
theorem documents_loadProject {disk : Disk} {root : Path} {project : Project}
    (loaded : (loadProject disk root).value = .ok project) :
    project.documents = (modules disk project.sourceRoot).map ModuleFile.document := by
  unfold loadProject at loaded
  cases found : sourceRootOf disk root with
  | error error =>
      rw [found] at loaded
      cases loaded
  | ok sourceRoot =>
      rw [found] at loaded
      cases loaded
      rfl

/-- Every directory that is searched has a name without dots, and every Python file has a stem
without dots. -/
inductive Undotted : FileTree → Prop
  | file (content : Source.Bytes) : Undotted (.file content)
  | directory {entries : List (String × FileTree)}
      (names : ∀ entry ∈ entries, entry.2.isDirectory = true → isExcluded entry.1 = false →
        entry.1 ≠ "" ∧ '.' ∉ entry.1.toList)
      (stems : ∀ entry ∈ entries, entry.2.isFile = true → ∀ stem ∈ pythonStem? entry.1,
        '.' ∉ stem.toList)
      (below : ∀ entry ∈ entries, isExcluded entry.1 = false → Undotted entry.2) :
      Undotted (.directory entries)

/-- No name on the way to a file has a dot. -/
theorem Undotted.of_searched {tree : FileTree} (undotted : Undotted tree)
    (wellNamed : tree.WellNamed) {directories : List String} {name : String}
    (searched : Searched tree directories name) :
    (∀ directory ∈ directories, directory ≠ "" ∧ '.' ∉ directory.toList) ∧
      ∀ stem ∈ pythonStem? name, '.' ∉ stem.toList := by
  induction directories generalizing tree with
  | nil =>
      cases undotted with
      | file content => exact absurd searched not_searched_file
      | directory names stems below =>
          obtain ⟨distinct, _⟩ := FileTree.wellNamed_directory_iff.mp wellNamed
          rcases (searched_directory_iff distinct).mp searched with
            ⟨_, content, member⟩ | ⟨_, _, _, same, _⟩
          · exact ⟨List.forall_mem_nil _, stems (name, .file content) member rfl⟩
          · cases same
  | cons first rest ih =>
      cases undotted with
      | file content => exact absurd searched not_searched_file
      | directory names stems below =>
          obtain ⟨distinct, wellNamedBelow⟩ := FileTree.wellNamed_directory_iff.mp wellNamed
          rcases (searched_directory_iff distinct).mp searched with
            ⟨same, _⟩ | ⟨_, _, child, same, member, notExcluded, inside⟩
          · cases same
          · obtain ⟨rfl, rfl⟩ := List.cons.inj same
            have isDirectory : child.isDirectory = true := by
              cases child with
              | file content => exact absurd inside not_searched_file
              | directory inner => rfl
            obtain ⟨above, stem⟩ :=
              ih (below _ member notExcluded) (wellNamedBelow _ member) inside
            exact ⟨List.forall_mem_cons.mpr ⟨names _ member isDirectory notExcluded, above⟩, stem⟩

/-! ## Places -/

/-- The directory that dots lead to from a directory: the first dot stays, each further one goes
up. -/
def surrounding (directories : List String) (level : Nat) : List String :=
  directories.take (directories.length - level + 1)

/-- Where the module of a dotted name stands, seen from a directory. -/
def modulePlace (directories : List String) (target : String) : List String :=
  directories ++ (Text.split "." target).dropLast ++
    [(Text.split "." target).getLastD "" ++ ".py"]

/-- Where the package file of a dotted name stands, seen from a directory. -/
def packagePlace (directories : List String) (target : String) : List String :=
  directories ++ Text.split "." target ++ [packageFile]

/-- A module beside the directory of its name, and the package file of that directory. -/
def Beside (sourceRoot : Path) (file package : ModuleFile) : Prop :=
  ∃ directories stem, stem ++ ".py" ≠ packageFile ∧
    file.path = sourceRoot.descend (directories ++ [stem ++ ".py"]) ∧
    package.path = sourceRoot.descend (directories ++ [stem, packageFile])

theorem surrounding_ne_nil {directories : List String} (nonempty : directories ≠ [])
    (level : Nat) : surrounding directories level ≠ [] := by
  obtain ⟨first, rest, rfl⟩ := List.exists_cons_of_ne_nil nonempty
  exact List.cons_ne_nil _ _

/-- The parts of a dotted name: all but the last, and the last. -/
theorem dropLast_concat_getLastD (target : String) :
    (Text.split "." target).dropLast ++ [(Text.split "." target).getLastD ""] =
      Text.split "." target := by
  rw [List.getLastD_eq_getLast?, List.getLast?_eq_some_getLast (Text.split_ne_nil _ _),
    Option.getD_some, List.dropLast_append_getLast]

/-- A dotted name joined to a directory is its parts joined to the directory. -/
theorem join_concat_target {directories : List String} (nonempty : directories ≠ [])
    (target : String) :
    Text.join "." (directories ++ [target]) =
      Text.join "." (directories ++ Text.split "." target) := by
  rw [Text.join_append nonempty (List.cons_ne_nil _ _),
    Text.join_append nonempty (Text.split_ne_nil _ _), Text.join_split (by decide)]
  rfl

theorem join_ne_join_concat {parts : List String} (nonempty : parts ≠ []) (last : String) :
    Text.join "." parts ≠ Text.join "." (parts ++ [last]) := by
  rw [Text.join_append nonempty (List.cons_ne_nil _ _)]
  intro same
  have size := congrArg String.length same
  simp only [String.length_append] at size
  have dot : (".").length = 1 := by decide
  omega

theorem split_join_of_undotted {parts : List String} (nonempty : parts ≠ [])
    (undotted : ∀ part ∈ parts, '.' ∉ part.toList) :
    Text.split "." (Text.join "." parts) = parts :=
  Text.split_join (by decide) nonempty fun part member =>
    Text.unbroken_of_notMem (undotted part member)

/-! ## Names of listed files -/

section Described

variable {root : FileTree} (wellNamed : root.WellNamed) (undotted : Undotted root)
  {directory : Path} {directories : List String} {name : String} {file : ModuleFile}
  (listed : Listed root directories name) (described : Describes directory directories name file)

include wellNamed undotted listed described

/-- The parts of a module name are the directories of the file, and the stem where it is not a
package file. -/
theorem split_moduleName :
    (name = packageFile ∧ directories ≠ [] ∧ Text.split "." file.moduleName = directories) ∨
    ∃ stem, name = stem ++ ".py" ∧ name ≠ packageFile ∧
      Text.split "." file.moduleName = directories ++ [stem] := by
  obtain ⟨plain, plainStem⟩ := undotted.of_searched wellNamed listed.toSearched
  by_cases package : name = packageFile
  · have below : directories ≠ [] := fun top => listed.notRoot ⟨top, package⟩
    refine .inl ⟨package, below, ?_⟩
    rw [described.ofPackage package]
    exact split_join_of_undotted below fun part member => (plain part member).2
  · obtain ⟨stem, ends, named⟩ := described.ofModule package
    refine .inr ⟨stem, ends, package, ?_⟩
    rw [named]
    apply split_join_of_undotted (List.append_ne_nil_of_right_ne_nil _ (List.cons_ne_nil _ _))
    intro part member
    rcases List.mem_append.mp member with above | last
    · exact (plain part above).2
    · obtain ⟨found, stemmed⟩ := Option.isSome_iff_exists.mp listed.python
      have same : stem = found :=
        (String.append_left_inj ".py").mp (ends.symm.trans (eq_append_of_pythonStem? stemmed))
      rw [List.mem_singleton.mp last, same]
      exact plainStem found stemmed

theorem package_document : file.document.package = Text.join "." directories := by
  rcases split_moduleName wellNamed undotted listed described with
    ⟨package, _, parts⟩ | ⟨stem, _, plain, parts⟩
  · have isPackage : file.document.isPackage = true := described.isPackage.mpr package
    rw [Document.package, if_pos isPackage, ← parts, Text.join_split (by decide)]
    rfl
  · have isModule : ¬ file.document.isPackage = true := fun isPackage =>
      plain (described.isPackage.mp isPackage)
    have dropped : (Text.split "." file.document.moduleName).dropLast = directories := by
      rw [ModuleFile.document, parts, List.dropLast_concat]
    rw [Document.package, if_neg isModule, dropped]

/-- **The package of a document has the directories of the file for its parts**, for modules and
for package files. -/
theorem packageParts_document : packageParts file.document = directories := by
  rw [packageParts, package_document wellNamed undotted listed described]
  by_cases top : directories = []
  · rw [top]
    rfl
  · obtain ⟨plain, _⟩ := undotted.of_searched wellNamed listed.toSearched
    have parts : Text.split "." (Text.join "." directories) = directories :=
      split_join_of_undotted top fun part member => (plain part member).2
    have named : Text.join "." directories ≠ "" := by
      intro empty
      have first : "" ∈ directories := by
        rw [← parts, empty]
        decide +kernel
      exact (plain "" first).1 rfl
    rw [if_neg named, parts]

/-- An import names what its dots lead to, followed by the parts of its module part. -/
theorem importedModule?_document {level : Nat} (dotted : 1 ≤ level)
    (inside : level ≤ directories.length) {target : String} (given : target ≠ "") :
    importedModule? file.document (some target) level =
      some (Text.join "." (surrounding directories level ++ Text.split "." target)) := by
  have parts := packageParts_document wellNamed undotted listed described
  have below : directories ≠ [] := List.length_pos_iff.mp (Nat.lt_of_lt_of_le dotted inside)
  have asked : modulePart (some target) = [target] := by
    simp [modulePart, given]
  rw [importedModule?_of_le dotted (by rw [parts]; exact inside), parts, asked,
    ← join_concat_target (surrounding_ne_nil below level)]
  rfl

end Described

section Located

variable {tree root : FileTree} {sourceRoot : Path} (located : tree.locate? sourceRoot = some root)
  (wellNamed : root.WellNamed)

include located wellNamed

/-- The path of a listed file tells how it is listed. -/
theorem describes_of_path {file : ModuleFile} (member : file ∈ modules tree sourceRoot)
    {directories : List String} {name : String}
    (stands : file.path = sourceRoot.descend (directories ++ [name])) :
    Listed root directories name ∧
      Describes (sourceRoot.descend directories) directories name file := by
  obtain ⟨above, last, listed, described⟩ := (mem_modules_iff located wellNamed).mp member
  have same : above ++ [last] = directories ++ [name] := by
    apply Path.descend_injective
    rw [← stands, described.path, Path.descend_child]
  obtain ⟨rfl, rfl⟩ := List.append_singleton_inj.mp same
  exact ⟨listed, described⟩

/-- The module of a dotted name is listed under that name, unless it is a package file. -/
theorem moduleName_of_modulePlace {directories : List String} (below : directories ≠ [])
    {target : String} {neighbour : ModuleFile} (member : neighbour ∈ modules tree sourceRoot)
    (stands : neighbour.path = sourceRoot.descend (modulePlace directories target)) :
    Text.join "." (directories ++ Text.split "." target) = neighbour.moduleName ↔
      (Text.split "." target).getLastD "" ≠ "__init__" := by
  have parts : directories ++ Text.split "." target = directories ++
      (Text.split "." target).dropLast ++ [(Text.split "." target).getLastD ""] := by
    rw [List.append_assoc, dropLast_concat_getLastD]
  obtain ⟨_, described⟩ := describes_of_path located wellNamed member stands
  have package : (Text.split "." target).getLastD "" ++ ".py" = packageFile ↔
      (Text.split "." target).getLastD "" = "__init__" := by
    rw [show packageFile = "__init__" ++ ".py" from rfl, String.append_left_inj]
  rw [parts]
  constructor
  · intro same spelled
    rw [described.ofPackage (package.mpr spelled)] at same
    exact join_ne_join_concat (List.append_ne_nil_of_left_ne_nil below _) _ same.symm
  · intro plain
    obtain ⟨stem, ends, named⟩ := described.ofModule (mt package.mp plain)
    rw [named, (String.append_left_inj ".py").mp ends]

/-- The package file of a dotted name is listed under that name. -/
theorem moduleName_of_packagePlace {directories : List String} {target : String}
    {neighbour : ModuleFile} (member : neighbour ∈ modules tree sourceRoot)
    (stands : neighbour.path = sourceRoot.descend (packagePlace directories target)) :
    Text.join "." (directories ++ Text.split "." target) = neighbour.moduleName := by
  obtain ⟨_, described⟩ := describes_of_path located wellNamed member stands
  exact (described.ofPackage rfl).symm

theorem Beside.moduleName_eq {file package : ModuleFile}
    (member : file ∈ modules tree sourceRoot) (packaged : package ∈ modules tree sourceRoot)
    (beside : Beside sourceRoot file package) : file.moduleName = package.moduleName := by
  obtain ⟨directories, stem, plain, stands, inside⟩ := beside
  rw [List.append_cons] at inside
  obtain ⟨_, described⟩ := describes_of_path located wellNamed member stands
  obtain ⟨_, describedPackage⟩ := describes_of_path located wellNamed packaged inside
  obtain ⟨found, ends, named⟩ := described.ofModule plain
  rw [describedPackage.ofPackage rfl, named, (String.append_left_inj ".py").mp ends]

/-- **A module name tells the file**, up to a module beside a package of its name. -/
theorem moduleName_eq_iff (undotted : Undotted root) {file other : ModuleFile}
    (member : file ∈ modules tree sourceRoot) (otherMember : other ∈ modules tree sourceRoot) :
    file.moduleName = other.moduleName ↔
      file = other ∨ Beside sourceRoot file other ∨ Beside sourceRoot other file := by
  constructor
  · intro same
    obtain ⟨directories, name, listed, described⟩ := (mem_modules_iff located wellNamed).mp member
    obtain ⟨others, otherName, otherListed, otherDescribed⟩ :=
      (mem_modules_iff located wellNamed).mp otherMember
    have names := split_moduleName wellNamed undotted listed described
    have otherNames := split_moduleName wellNamed undotted otherListed otherDescribed
    rw [← same] at otherNames
    -- Equal names have equal parts. If only one of the files is a package file, the last directory
    -- on its way is the stem of the other.
    rcases names with ⟨rfl, _, parts⟩ | ⟨stem, rfl, plain, parts⟩
    · rcases otherNames with ⟨rfl, _, otherParts⟩ | ⟨otherStem, rfl, otherPlain, otherParts⟩
      · obtain rfl : directories = others := parts.symm.trans otherParts
        exact .inl (described.unique otherDescribed)
      · obtain rfl : directories = others ++ [otherStem] := parts.symm.trans otherParts
        refine .inr (.inr ⟨others, otherStem, otherPlain, ?_, ?_⟩)
        · rw [otherDescribed.path, Path.descend_child]
        · rw [described.path, Path.descend_child, ← List.append_cons]
    · rcases otherNames with ⟨rfl, _, otherParts⟩ | ⟨otherStem, rfl, otherPlain, otherParts⟩
      · obtain rfl : others = directories ++ [stem] := otherParts.symm.trans parts
        refine .inr (.inl ⟨directories, stem, plain, ?_, ?_⟩)
        · rw [described.path, Path.descend_child]
        · rw [otherDescribed.path, Path.descend_child, ← List.append_cons]
      · obtain ⟨rfl, rfl⟩ := List.append_singleton_inj.mp (parts.symm.trans otherParts)
        exact .inl (described.unique otherDescribed)
  · rintro (rfl | beside | beside)
    · rfl
    · exact beside.moduleName_eq located wellNamed member otherMember
    · exact (beside.moduleName_eq located wellNamed otherMember member).symm

end Located

/-- **Relative imports land on the neighbouring file.** Let no directory below the source root
have two entries of one name, and let no name on the way to a listed file have a dot. From a
listed file in a directory, dots that stay below the source root lead to a directory around it.
The import of a dotted name gives the name under which the package file of that name is listed,
seen from there, and the name under which the module of that name is listed, unless the dotted
name ends in `__init__`. Two listed files have the same name only as a module and the package
file of the directory of its name beside it. -/
theorem relative_imports_land_on_neighbours {tree root : FileTree} {sourceRoot : Path}
    (located : tree.locate? sourceRoot = some root) (wellNamed : root.WellNamed)
    (undotted : Undotted root) :
    (∀ file ∈ modules tree sourceRoot, ∀ directories name,
      file.path = sourceRoot.descend (directories ++ [name]) →
      ∀ level : Nat, 1 ≤ level → level ≤ directories.length → ∀ target, target ≠ "" →
        (∀ neighbour ∈ modules tree sourceRoot,
          neighbour.path = sourceRoot.descend
            (modulePlace (surrounding directories level) target) →
          (importedModule? file.document (some target) level = some neighbour.moduleName ↔
            (Text.split "." target).getLastD "" ≠ "__init__")) ∧
        ∀ package ∈ modules tree sourceRoot,
          package.path = sourceRoot.descend
            (packagePlace (surrounding directories level) target) →
          importedModule? file.document (some target) level = some package.moduleName) ∧
    ∀ file ∈ modules tree sourceRoot, ∀ other ∈ modules tree sourceRoot,
      (file.moduleName = other.moduleName ↔
        file = other ∨ Beside sourceRoot file other ∨ Beside sourceRoot other file) := by
  constructor
  · intro file member directories name stands level dotted inside target given
    obtain ⟨listed, described⟩ := describes_of_path located wellNamed member stands
    have below : directories ≠ [] := List.length_pos_iff.mp (Nat.lt_of_lt_of_le dotted inside)
    rw [importedModule?_document wellNamed undotted listed described dotted inside given]
    constructor
    · intro neighbour neighbourMember place
      rw [Option.some.injEq]
      exact moduleName_of_modulePlace located wellNamed (surrounding_ne_nil below level)
        neighbourMember place
    · intro package packageMember place
      rw [moduleName_of_packagePlace located wellNamed packageMember place]
  · intro file member other otherMember
    exact moduleName_eq_iff located wellNamed undotted member otherMember

/-- A package with a module and a package in it. -/
def nestedPackages : FileTree :=
  .directory [("app", .directory [("__init__.py", .file []), ("util.py", .file []),
    ("web", .directory [("__init__.py", .file []), ("views.py", .file [])])])]

theorem wellNamed_nestedPackages : nestedPackages.WellNamed := by
  simp [nestedPackages]

theorem undotted_nestedPackages : Undotted nestedPackages := by
  have empty : Undotted (.file []) := .file []
  have web : Undotted (.directory [("__init__.py", .file []), ("views.py", .file [])]) :=
    .directory (by decide +kernel) (by decide +kernel) (by simp [empty])
  have app : Undotted (.directory [("__init__.py", .file []), ("util.py", .file []),
      ("web", .directory [("__init__.py", .file []), ("views.py", .file [])])]) :=
    .directory (by decide +kernel) (by decide +kernel) (by simp [empty, web])
  exact .directory (by decide +kernel) (by decide +kernel) (by simp [app])

theorem mem_modules_nestedPackages (directories : List String) (name : String)
    {file : ModuleFile} (stands : nestedPackages.content? (directories ++ [name]) = some [])
    (searched : ∀ directory ∈ directories, isExcluded directory = false)
    (found : moduleOf? (Path.descend {} directories) directories name = some file) :
    file ∈ modules nestedPackages {} := by
  have located : nestedPackages.locate? {} = some nestedPackages := rfl
  apply (mem_modules_iff_searched located wellNamed_nestedPackages).mpr
  exact ⟨directories, name, ⟨⟨[], stands⟩, searched⟩, found⟩

/-- Two dots lead from the inner package to the outer one, from its module and from its package
file. -/
theorem relative_imports_land_on_neighbours_nested :
    nestedPackages.WellNamed ∧ Undotted nestedPackages ∧
    importedModule? ⟨⟨.here, ["app", "web", "views.py"]⟩, "app.web.views", false⟩
      (some "util") 2 = some "app.util" ∧
    importedModule? ⟨⟨.here, ["app", "web", "__init__.py"]⟩, "app.web", true⟩
      (some "web") 2 = some "app.web" := by
  have located : nestedPackages.locate? {} = some nestedPackages := rfl
  have util : ⟨"app.util", ⟨.here, ["app", "util.py"]⟩, false⟩ ∈ modules nestedPackages {} :=
    mem_modules_nestedPackages ["app"] "util.py" rfl (by decide +kernel) (by decide +kernel)
  have web : ⟨"app.web", ⟨.here, ["app", "web", "__init__.py"]⟩, true⟩ ∈
      modules nestedPackages {} :=
    mem_modules_nestedPackages ["app", "web"] "__init__.py" rfl (by decide +kernel)
      (by decide +kernel)
  have views : ⟨"app.web.views", ⟨.here, ["app", "web", "views.py"]⟩, false⟩ ∈
      modules nestedPackages {} :=
    mem_modules_nestedPackages ["app", "web"] "views.py" rfl (by decide +kernel)
      (by decide +kernel)
  obtain ⟨landing, -⟩ := relative_imports_land_on_neighbours located wellNamed_nestedPackages
    undotted_nestedPackages
  refine ⟨wellNamed_nestedPackages, undotted_nestedPackages, ?_, ?_⟩
  · obtain ⟨toModule, -⟩ := landing _ views ["app", "web"] "views.py" rfl 2 (by decide)
      (by decide) "util" (by decide)
    exact (toModule _ util (by decide +kernel)).mpr (by decide +kernel)
  · obtain ⟨-, toPackage⟩ := landing _ web ["app", "web"] "__init__.py" rfl 2 (by decide)
      (by decide) "web" (by decide)
    exact toPackage _ web (by decide +kernel)

/-- **An import that spells out `__init__` misses the package file** that it leads to: that file
is listed under the name of its directory. -/
theorem spelled_package_file_missed :
    nestedPackages.WellNamed ∧ Undotted nestedPackages ∧
    ∃ file ∈ modules nestedPackages {}, ∃ neighbour ∈ modules nestedPackages {},
      file.path = Path.descend {} (["app"] ++ ["util.py"]) ∧
      neighbour.path = Path.descend {} (modulePlace (surrounding ["app"] 1) "__init__") ∧
      neighbour.moduleName = "app" ∧
      importedModule? file.document (some "__init__") 1 = some "app.__init__" := by
  have util : ⟨"app.util", ⟨.here, ["app", "util.py"]⟩, false⟩ ∈ modules nestedPackages {} :=
    mem_modules_nestedPackages ["app"] "util.py" rfl (by decide +kernel) (by decide +kernel)
  have app : ⟨"app", ⟨.here, ["app", "__init__.py"]⟩, true⟩ ∈ modules nestedPackages {} :=
    mem_modules_nestedPackages ["app"] "__init__.py" rfl (by decide +kernel) (by decide +kernel)
  exact ⟨wellNamed_nestedPackages, undotted_nestedPackages, _, util, _, app, rfl,
    by decide +kernel, rfl, by decide +kernel⟩

end CyclicCalls.Solution
