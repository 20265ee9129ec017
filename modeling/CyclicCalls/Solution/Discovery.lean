import CyclicCalls.Disk
/-!
# Finding modules

The modules below a source root are its Python files, except those below a
directory with an excluded name and the package file of the root itself. A file
is named by the directories on the way to it and its stem, joined by dots; the
package file of a directory is named by the directory.

Files are listed directory by directory: the files of a directory by name, then
its subdirectories by name. The list is then ordered by module name, and modules
of one name keep the order in which they were found. A directory that the system
refuses to list is passed over without a word.
-/

set_option autoImplicit false

namespace CyclicCalls.Solution

/-- Names of directories that are never searched. -/
def excludedNames : List String :=
  [".svn", "CVS", ".bzr", ".hg", ".git", "__pycache__", ".tox", ".nox", ".eggs", ".venv", "venv",
    "build", "dist", "node_modules"]

/-- Ends of names of directories that are never searched. -/
def excludedEndings : List String :=
  [".egg", ".egg-info"]

/-- Whether directories with a name are never searched. -/
def isExcluded (name : String) : Bool :=
  excludedNames.contains name || excludedEndings.any (fun ending => Text.endsWith ending name)

/-- The last component of a name that may hold slashes. -/
def lastComponent (name : String) : List Char :=
  (name.toList.reverse.takeWhile (· != '/')).reverse

/-- The name of a Python file without its extension. Dots at the start of a name
never start an extension. -/
def pythonStem? (name : String) : Option String :=
  let stem := name.toList.take (name.length - 3)
  if Text.endsWith ".py" name && (lastComponent (String.ofList stem)).any (· != '.') then
    some (String.ofList stem)
  else none

/-- Whether a name is that of a Python file. -/
def isPythonFile (name : String) : Bool :=
  (pythonStem? name).isSome

/-- The name of the package file of a directory. -/
def packageFile : String := "__init__.py"

/-- A module: its dotted name, its file, and whether that is a package file. -/
structure ModuleFile where
  moduleName : String
  path : Path
  isPackage : Bool
deriving DecidableEq, Repr

/-- The module that a file in a directory is, if it is one. The directory is
given by its path and by its names below the source root. -/
def moduleOf? (directory : Path) (parts : List String) (name : String) : Option ModuleFile :=
  if name == packageFile then
    if parts.isEmpty then none
    else some ⟨Text.join "." parts, directory.child name, true⟩
  else
    (pythonStem? name).map (fun stem =>
      ⟨Text.join "." (parts ++ [stem]), directory.child name, false⟩)

/-- Order entries by name. -/
def byName {α : Type} (entries : List (String × α)) : List (String × α) :=
  entries.mergeSort (fun a b => Text.le a.1 b.1)

/-- The modules that are files of a directory, by file name. -/
def ownModules (directory : Path) (parts : List String) (entries : List (String × FileTree)) :
    List ModuleFile :=
  (byName (entries.filter (fun entry => entry.2.isFile))).filterMap
    (fun entry => moduleOf? directory parts entry.1)

mutual

/-- The modules in a directory and below it, as they are found. -/
def modulesIn (directory : Path) (parts : List String) : FileTree → List ModuleFile
  | .file _ => []
  | .directory entries =>
    ownModules directory parts entries ++
      (byName (modulesBelow directory parts entries)).flatMap (·.2)

/-- The subdirectories that are searched, each with the modules found in it. -/
def modulesBelow (directory : Path) (parts : List String) :
    List (String × FileTree) → List (String × List ModuleFile)
  | [] => []
  | (name, child) :: entries =>
    if child.isDirectory && !isExcluded name then
      (name, modulesIn (directory.child name) (parts ++ [name]) child) ::
        modulesBelow directory parts entries
    else modulesBelow directory parts entries

end

/-- The modules below a source root, ordered by name. -/
def modules (disk : Disk) (sourceRoot : Path) : List ModuleFile :=
  match disk.files.locate? sourceRoot with
  | none => []
  | some root =>
    (modulesIn sourceRoot [] (disk.visible sourceRoot root)).mergeSort
      (fun a b => Text.le a.moduleName b.moduleName)

end CyclicCalls.Solution
