import CyclicCalls.Event
import CyclicCalls.Solution.Discovery
/-!
# Opening a solution

A solution is a Python file, a project directory, or a directory of projects. A
directory is a project of its own when it holds one of the marker files; a
directory without one whose subdirectories hold markers is the solution of these
subdirectories. The sources of a project lie in its `src` directory if it has
one.

All of this is found out by looking at paths and listing a directory. Where the
system refuses a look or a list, opening stops, and the error of the system is
passed on as it is.
-/

set_option autoImplicit false

namespace CyclicCalls.Solution

/-- A source file with its module name. -/
structure Document where
  path : Path
  moduleName : String
  isPackage : Bool := false
deriving DecidableEq, Repr

/-- The package that relative imports of a document start from: a package file is
its own package, and another file belongs to what stands before its last dot. -/
def Document.package (document : Document) : String :=
  if document.isPackage then document.moduleName
  else Text.join "." (Text.split "." document.moduleName).dropLast

/-- A directory of sources. -/
structure Project where
  name : String
  root : Path
  sourceRoot : Path
  documents : List Document
deriving DecidableEq, Repr

/-- Why a solution cannot be loaded. The path is shown as it was given. -/
inductive LoadError where
  | missing (given : String)
  | notPython (given : String)
  | noSources (given : String)
  | unreadable (path : Path) (error : FileError)
deriving DecidableEq, Repr

/-- The wording of a load failure. -/
def LoadError.message : LoadError → String
  | .missing given => "solution path '" ++ given ++ "' not found"
  | .notPython given => "'" ++ given ++ "' is not a Python file"
  | .noSources given => "no Python sources found under '" ++ given ++ "'"
  | .unreadable path error => "cannot read '" ++ path.text ++ "': " ++ error.message path.text

/-- How loading a solution fails. -/
inductive LoadFailure where
  /-- The reason is found and reported. -/
  | reported (error : LoadError)
  /-- The system refuses a request, and its error is passed on. -/
  | refused (error : SystemError)
deriving DecidableEq, Repr

/-- The wording of a failure. -/
def LoadFailure.message : LoadFailure → String
  | .reported error => error.message
  | .refused error => error.message

/-- Files that mark a directory as a project. -/
def projectMarkers : List String :=
  ["pyproject.toml", "setup.py", "setup.cfg"]

/-- Whether a directory holds a marker file. Markers are looked for until one is
found. -/
def isProject (disk : Disk) (path : Path) : Except SystemError Bool :=
  projectMarkers.anyM (fun marker => disk.hasFile (path.child marker))

/-- Where the sources of a project lie. -/
def sourceRootOf (disk : Disk) (root : Path) : Except SystemError Path := do
  if ← disk.hasDirectory (root.child "src") then return root.child "src" else return root

/-- The project at a directory. -/
def loadProject (disk : Disk) (root : Path) : Logged (Except SystemError Project) :=
  match sourceRootOf disk root with
  | .error error => pure (.error error)
  | .ok sourceRoot => do
    let documents := (modules disk sourceRoot).map (fun file =>
      { path := file.path, moduleName := file.moduleName, isPackage := file.isPackage : Document })
    Logged.say (.projectOpened root.name documents.length sourceRoot.text)
    pure (.ok { name := root.name, root, sourceRoot, documents })

/-- The projects at directories, from left to right. -/
def loadProjects (disk : Disk) : List Path → Logged (Except SystemError (List Project))
  | [] => pure (.ok [])
  | root :: roots => do
    match ← loadProject disk root with
    | .error error => pure (.error error)
    | .ok project =>
      let others ← loadProjects disk roots
      pure (others.map (project :: ·))

/-- Whether a subdirectory of a solution is a project of it. -/
def isSubproject (disk : Disk) (path : Path) : Except SystemError Bool := do
  if !(← disk.hasDirectory path) then return false
  if isExcluded path.name then return false
  isProject disk path

/-- The subdirectories that are projects, by name. -/
def subprojects (disk : Disk) (path : Path) (entries : List (String × FileTree)) :
    Except SystemError (List Path) := do
  disk.ask .list path
  let found ← entries.filterM (fun entry => isSubproject disk (path.child entry.1))
  return (byName found).map (fun entry => path.child entry.1)

/-- The roots of the projects of a solution directory. -/
def projectRoots (disk : Disk) (path : Path) (entries : List (String × FileTree)) :
    Except SystemError (List Path) := do
  if ← isProject disk path then return [path]
  match ← subprojects disk path entries with
  | [] => return [path]
  | roots => return roots

/-- The projects of a solution directory with their documents. -/
def openDirectory (disk : Disk) (given : String) (entries : List (String × FileTree)) :
    Logged (Except LoadFailure (List Project)) :=
  match projectRoots disk (Path.ofText given) entries with
  | .error error => pure (.error (.refused error))
  | .ok roots => do
    match ← loadProjects disk roots with
    | .error error => pure (.error (.refused error))
    | .ok projects =>
      if projects.all (fun project => project.documents.isEmpty) then
        pure (.error (.reported (.noSources given)))
      else pure (.ok projects)

/-- The projects of a solution with their documents. -/
def openAt (disk : Disk) (given : String) : Logged (Except LoadFailure (List Project)) :=
  let path := Path.ofText given
  match disk.look path with
  | .error error => pure (.error (.refused error))
  | .ok none => pure (.error (.reported (.missing given)))
  | .ok (some (.file _)) =>
    match pythonStem? path.name with
    | none => pure (.error (.reported (.notPython given)))
    | some stem =>
      pure (.ok [{ name := stem, root := path.parent, sourceRoot := path.parent,
                   documents := [{ path, moduleName := stem }] }])
  | .ok (some (.directory entries)) => openDirectory disk given entries

end CyclicCalls.Solution
