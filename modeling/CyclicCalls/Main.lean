import CyclicCalls.CommandLine.Run
/-!
# The program

The files that the arguments name are looked up on disk, the command line is run
on them, and what it leaves behind is put out. Where the user has no rights, the
request is noted as one that is refused. Everything is encoded in UTF-8.
-/

set_option autoImplicit false

namespace CyclicCalls.Program

/-- Requests for which the user has no rights. -/
abbrev Denied := List (Request × Path)

/-- Do something, and note it if it is denied. -/
def attempt {α : Type} (request : Request) (path : Path) (otherwise : α) (action : IO α) :
    StateT Denied IO α := do
  try action
  catch
    | .permissionDenied .. =>
      modify ((request, path) :: ·)
      return otherwise
    | error => throw error

/-- What stands at a path on disk, with everything below it. Only the contents of
source files are read. -/
partial def load (path : Path) : StateT Denied IO FileTree := do
  let place := (← IO.currentDir) / path.text
  if ← place.isDir then
    let found ← attempt .list path #[] place.readDir
    let entries ← found.toList.filterMapM (fun entry => do
      if Solution.isExcluded entry.fileName && (← entry.path.isDir) then return none
      return some (entry.fileName, ← load (path.child entry.fileName)))
    return .directory entries
  else if Solution.isPythonFile path.name then
    return .file (← attempt .read path .empty (IO.FS.readBinFile place)).toList
  else
    return .file []

/-- Whether something stands at a path on disk. -/
def present (path : Path) : StateT Denied IO Bool := do
  let place := (← IO.currentDir) / path.text
  attempt .look path false (do
    try
      discard place.metadata
      return true
    catch
      | error@(.permissionDenied ..) => throw error
      | _ => return false)

/-- Take into a tree what stands at a path on disk, and what stands on the way to
it, unless the tree holds it already. -/
partial def visit (tree : FileTree) (path : Path) (deep : Bool) : StateT Denied IO FileTree := do
  let above ← if path.parts.isEmpty then pure tree else visit tree path.parent false
  if !(← present path) then return above
  let names := FileTree.anchorNames path.anchor ++
    path.parts.foldl (FileTree.follow path.anchor) []
  if deep then return above.put (← load path) names
  if (above.at? names).isSome then return above
  let place := (← IO.currentDir) / path.text
  return above.put (if ← place.isDir then FileTree.empty else .file []) names

/-- The files that a command line is about. -/
def filesOf (texts : List String) : StateT Denied IO FileTree := do
  match CommandLine.read texts with
  | .error _ => return FileTree.empty
  | .ok arguments =>
    let solution ← match arguments.solution with
      | some text => visit FileTree.empty (Path.ofText text) true
      | none => pure FileTree.empty
    match arguments.output with
    | some text => visit solution (Path.ofText text) false
    | none => return solution

/-- The disk with what a command line is about. -/
def diskOf (texts : List String) : IO Disk := do
  let (files, denied) ← (filesOf texts).run []
  let limited := Disk.limited files
  return { limited with
    refusal? := fun request path =>
      if denied.contains (request, path) then some .denied else limited.refusal? request path }

/-- Write the report that a run has put into its tree of files. -/
def save (texts : List String) (files : FileTree) : IO Unit := do
  match CommandLine.read texts with
  | .ok { output := some output, .. } =>
    match files.read (Path.ofText output) with
    | .ok content => IO.FS.writeBinFile output (ByteArray.mk content.toArray)
    | .error _ => return ()
  | _ => return ()

end CyclicCalls.Program

/-- Run the command line. -/
def main (texts : List String) : IO UInt32 := do
  let outcome := CyclicCalls.CommandLine.run (← CyclicCalls.Program.diskOf texts) {} texts
  (← IO.getStdout).putStr outcome.stdout
  (← IO.getStderr).putStr outcome.stderr
  match outcome.exit with
  | .ok code =>
    if code == 0 then CyclicCalls.Program.save texts outcome.files
    return code.toUInt32
  | .error failure =>
    (← IO.getStderr).putStr (failure.message ++ "\n")
    return 1
