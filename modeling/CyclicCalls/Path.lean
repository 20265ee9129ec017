import CyclicCalls.Text.Split
/-!
# Paths

A path is where it starts, at the working directory or at a root, and the names
on the way. Empty names and single dots say nothing and are dropped; double dots
are kept. Two slashes at the start, and no more, are a root of their own.
-/

set_option autoImplicit false

namespace CyclicCalls

/-- Where a path starts. -/
inductive Anchor where
  | here
  | root
  | doubleRoot
deriving DecidableEq, Repr

/-- The text of a start. -/
def Anchor.text : Anchor → String
  | .here => ""
  | .root => "/"
  | .doubleRoot => "//"

/-- A start and the names on the way. -/
structure Path where
  anchor : Anchor := .here
  parts : List String := []
deriving DecidableEq, Repr

namespace Path

/-- The start that a number of leading slashes stands for. -/
def anchorOf (slashes : Nat) : Anchor :=
  if slashes == 0 then .here else if slashes == 2 then .doubleRoot else .root

/-- The path that a text denotes. -/
def ofText (text : String) : Path where
  anchor := anchorOf (text.toList.takeWhile (· == '/')).length
  parts := (Text.split "/" text).filter (fun part => part != "" && part != ".")

/-- The text of a path; the working directory is a single dot. -/
def text (path : Path) : String :=
  if path.anchor == .here && path.parts.isEmpty then "."
  else path.anchor.text ++ Text.join "/" path.parts

/-- The last name, empty when there is none. -/
def name (path : Path) : String :=
  path.parts.getLastD ""

/-- The path without its last name. -/
def parent (path : Path) : Path :=
  { path with parts := path.parts.dropLast }

/-- The path one name further. -/
def child (path : Path) (name : String) : Path :=
  { path with parts := path.parts ++ [name] }

end Path

end CyclicCalls
