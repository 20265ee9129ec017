import CyclicCalls.FileTree
/-!
# Disks

A disk is a tree of files in the care of a system. Every request about a path goes to the system,
which may refuse it: the user may have no rights there, or the path may be too long. A refused
request says nothing about what stands at the path. Whether a request is refused depends on the
request and on the path alone, and does not change while a program runs.

A tree by itself is a disk on which nothing is refused.
-/

set_option autoImplicit false

namespace CyclicCalls

/-- What a system is asked to do. -/
inductive Request where
  /-- Say what stands at a path. -/
  | look
  /-- Name the entries of a directory. -/
  | list
  | read
  /-- Open a file anew, and fill it. -/
  | write
deriving DecidableEq, Repr

/-- A tree of files, and what the system refuses to do. -/
structure Disk where
  files : FileTree
  refusal? : Request → Path → Option Refusal := fun _ _ => none

/-- A refusal with the path that the request was about. -/
structure SystemError where
  path : Path
  refusal : Refusal
deriving DecidableEq, Repr

/-- The wording of a refusal. -/
def SystemError.message (error : SystemError) : String :=
  (FileError.refused error.refusal).message error.path.text

namespace Disk

/-- The disk with a tree of files on which nothing is refused. -/
@[coe] def ofFiles (files : FileTree) : Disk where
  files := files

instance : Coe FileTree Disk := ⟨ofFiles⟩

/-- Ask the system for something, which it may refuse. -/
def ask (disk : Disk) (request : Request) (path : Path) : Except SystemError Unit :=
  match disk.refusal? request path with
  | some refusal => .error ⟨path, refusal⟩
  | none => .ok ()

/-- What stands at a path, if anything does. -/
def look (disk : Disk) (path : Path) : Except SystemError (Option FileTree) := do
  disk.ask .look path
  return disk.files.locate? path

/-- Whether a file stands at a path. -/
def hasFile (disk : Disk) (path : Path) : Except SystemError Bool := do
  return (← disk.look path).any FileTree.isFile

/-- Whether a directory stands at a path. -/
def hasDirectory (disk : Disk) (path : Path) : Except SystemError Bool := do
  return (← disk.look path).any FileTree.isDirectory

/-- The bytes of the file at a path. -/
def read (disk : Disk) (path : Path) : Except FileError Source.Bytes :=
  match disk.refusal? .read path with
  | some refusal => .error (.refused refusal)
  | none => disk.files.read path

/-- The files after a file was written. -/
def write (disk : Disk) (path : Path) (content : Source.Bytes) : Except FileError FileTree :=
  match disk.refusal? .write path with
  | some refusal => .error (.refused refusal)
  | none => disk.files.write path content

/-! ## Walks -/

mutual

/-- What a walk sees of a tree that stands at a path. It passes over every directory that the
system refuses to list. -/
def visible (disk : Disk) (path : Path) : FileTree → FileTree
  | .file content => .file content
  | .directory entries =>
    match disk.refusal? .list path with
    | some _ => .directory []
    | none => .directory (disk.visibleEntries path entries)

/-- What a walk sees of the entries of a directory. -/
def visibleEntries (disk : Disk) (path : Path) :
    List (String × FileTree) → List (String × FileTree)
  | [] => []
  | (name, child) :: entries =>
    (name, disk.visible (path.child name) child) :: disk.visibleEntries path entries

end

end Disk

/-! ## Lengths of names -/

/-- How many bytes a name and a whole path may have. -/
structure Limits where
  name : Nat := 255
  path : Nat := 4095

/-- Whether a name on a way below an anchor is too long. Nothing is asked of the names behind
one that is missing or no directory. -/
def FileTree.hasLongName (tree : FileTree) (limits : Limits) (anchor : Anchor)
    (here : List String) : List String → Bool
  | [] => false
  | part :: parts =>
    match tree.at? here with
    | some (.directory _) =>
      limits.name < part.utf8ByteSize ||
        tree.hasLongName limits anchor (follow anchor here part) parts
    | _ => false

/-- The disk with a tree of files on which only paths are refused that are too long. -/
def Disk.limited (files : FileTree) (limits : Limits := {}) : Disk where
  files := files
  refusal? _ path :=
    if limits.path < path.text.utf8ByteSize ||
        (files.under path.anchor).hasLongName limits path.anchor [] path.parts then
      some .nameTooLong
    else none

end CyclicCalls
