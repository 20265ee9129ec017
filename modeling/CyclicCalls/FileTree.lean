import CyclicCalls.Path
import CyclicCalls.Source.Encoding
import CyclicCalls.Text.Quoted
/-!
# Trees of files

The files and directories that an analysis knows of, as a value. Paths are
followed name by name from the working directory or from a root; a double dot
goes up by one directory. What the tree does not hold counts as missing.
-/

set_option autoImplicit false

namespace CyclicCalls

/-- A file with its bytes, or a directory with its entries. -/
inductive FileTree where
  | file (content : Source.Bytes)
  | directory (entries : List (String × FileTree))

/-- The numbers of the errors by which a system says that nothing stands at a path: no such
entry, a bad descriptor, no directory on the way, too many links. -/
def absenceNumbers : List Nat := [2, 9, 20, 40]

/-- An error of the system that leaves open what stands at a path. -/
structure Refusal where
  number : Nat
  wording : String
  notAbsence : number ∉ absenceNumbers := by decide
deriving DecidableEq, Repr

/-- The path, or a name on it, is too long. -/
def Refusal.nameTooLong : Refusal where
  number := 36
  wording := "File name too long"

/-- The user has no right to do it. -/
def Refusal.denied : Refusal where
  number := 13
  wording := "Permission denied"

/-- Why a path cannot be opened. -/
inductive FileError where
  | missing
  | notDirectory
  | isDirectory
  | refused (refusal : Refusal)
deriving DecidableEq, Repr

/-- The number of an error and its wording. -/
def FileError.description : FileError → Nat × String
  | .missing => (2, "No such file or directory")
  | .notDirectory => (20, "Not a directory")
  | .isDirectory => (21, "Is a directory")
  | .refused refusal => (refusal.number, refusal.wording)

/-- The wording of a failure to open a path. -/
def FileError.message (error : FileError) (path : String) : String :=
  "[Errno " ++ toString error.description.1 ++ "] " ++ error.description.2 ++ ": " ++
    Text.quoted path

namespace FileTree

/-- The empty directory. -/
def empty : FileTree := .directory []

/-- The entry with a given name. -/
def entry? : FileTree → String → Option FileTree
  | .file _, _ => none
  | .directory entries, name => entries.lookup name

/-- What stands at the end of the given names. -/
def at? (tree : FileTree) : List String → Option FileTree
  | [] => some tree
  | name :: names => (tree.entry? name).bind (fun child => child.at? names)

/-- Whether a tree is a file. -/
def isFile : FileTree → Bool
  | .file _ => true
  | .directory _ => false

/-- Whether a tree is a directory. -/
def isDirectory (tree : FileTree) : Bool :=
  !tree.isFile

/-- The names that lead one part further. A double dot goes up by one directory:
above the working directory lie entries of that name, above a root the root. -/
def follow (anchor : Anchor) (here : List String) (part : String) : List String :=
  if part != ".." then here ++ [part]
  else if !here.all (· == "..") then here.dropLast
  else if anchor == .here then here ++ [".."]
  else here

/-- The names that lead to the end of a way below an anchor. All on the way has to
be a directory. -/
def resolve (tree : FileTree) (anchor : Anchor) (here : List String) :
    List String → Except FileError (List String)
  | [] => .ok here
  | part :: parts =>
    match tree.at? here with
    | none => .error .missing
    | some (.file _) => .error .notDirectory
    | some (.directory _) => tree.resolve anchor (follow anchor here part) parts

/-- The tree below an anchor. A root is an entry with its own text as name; it is
there also when nothing is known of what lies below it. -/
def under (tree : FileTree) : Anchor → FileTree
  | .here => tree
  | anchor => (tree.entry? anchor.text).getD empty

/-- What stands at a path. -/
def locate (tree : FileTree) (path : Path) : Except FileError FileTree :=
  let base := tree.under path.anchor
  match base.resolve path.anchor [] path.parts with
  | .error error => .error error
  | .ok names =>
    match base.at? names with
    | some found => .ok found
    | none => .error .missing

/-- What stands at a path, if anything does. -/
def locate? (tree : FileTree) (path : Path) : Option FileTree :=
  (tree.locate path).toOption

/-- Whether a file stands at a path. -/
def hasFile (tree : FileTree) (path : Path) : Bool :=
  (tree.locate? path).any isFile

/-- Whether a directory stands at a path. -/
def hasDirectory (tree : FileTree) (path : Path) : Bool :=
  (tree.locate? path).any isDirectory

/-- The bytes of the file at a path. -/
def read (tree : FileTree) (path : Path) : Except FileError Source.Bytes :=
  match tree.locate path with
  | .error error => .error error
  | .ok (.file content) => .ok content
  | .ok (.directory _) => .error .isDirectory

/-- Replace the entry with a given name, or add it at the end. -/
def putEntry (name : String) (child : FileTree) :
    List (String × FileTree) → List (String × FileTree)
  | [] => [(name, child)]
  | (other, tree) :: entries =>
    if other == name then (name, child) :: entries
    else (other, tree) :: putEntry name child entries

/-- Put a tree at the end of the given names; directories on the way are made as
needed. -/
def put (tree : FileTree) (leaf : FileTree) : List String → FileTree
  | [] => leaf
  | name :: names =>
    match tree with
    | .file content => .file content
    | .directory entries =>
      let child := (entries.lookup name).getD empty
      .directory (putEntry name (child.put leaf names) entries)

/-- Make a directory at the end of the given names, unless something is there. -/
def makeDirectory (tree : FileTree) (names : List String) : FileTree :=
  if (tree.at? names).isSome then tree else tree.put empty names

/-- The name under which the tree below an anchor is kept. -/
def anchorNames : Anchor → List String
  | .here => []
  | anchor => [anchor.text]

/-- Write a file: its directory has to be there, and no directory in its place. -/
def write (tree : FileTree) (path : Path) (content : Source.Bytes) :
    Except FileError FileTree :=
  let base := tree.under path.anchor
  match path.parts.getLast? with
  | none => .error .isDirectory
  | some last =>
    match base.resolve path.anchor [] path.parts.dropLast with
    | .error error => .error error
    | .ok names =>
      match base.at? names with
      | none => .error .missing
      | some (.file _) => .error .notDirectory
      | some (.directory entries) =>
        if last == ".." || (entries.lookup last).any isDirectory then .error .isDirectory
        else .ok (tree.put (.file content) (anchorNames path.anchor ++ names ++ [last]))

end FileTree

end CyclicCalls
