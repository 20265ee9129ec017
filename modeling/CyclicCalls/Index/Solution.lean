import CyclicCalls.Index.Module
/-!
# The index of a solution

The modules of all documents read so far, by module name and by document. A later
document of the same module name takes the place of an earlier one under that
name, which is reported; each document keeps what was found in it.
-/

set_option autoImplicit false

namespace CyclicCalls.Index

open Source Solution

/-- The modules of a solution. Documents go by number. -/
structure SolutionIndex where
  modules : Bindings ModuleInfo := {}
  byDocument : List (Nat × ModuleInfo) := []
  /-- How many entries were made. -/
  entries : Nat := 0

namespace SolutionIndex

/-- The module of a given name. -/
def module? (index : SolutionIndex) (name : String) : Option ModuleInfo :=
  index.modules.find? name

/-- What was found in a document. -/
def ofDocument? (index : SolutionIndex) (number : Nat) : Option ModuleInfo :=
  index.byDocument.lookup number

/-- Whether a name is that of a module, or of a package that modules lie in. -/
def isModule (index : SolutionIndex) (name : String) : Bool :=
  index.modules.names.any (fun known => known == name || Text.startsWith (name ++ ".") known)

/-- Enter what a document declares. -/
def add (index : SolutionIndex) (number : Nat) (document : Document) (statements : List Stmt) :
    Logged SolutionIndex := do
  let info ← moduleInfo index.entries document statements
  match index.module? info.name with
  | some earlier =>
    Logged.say (.moduleRedefined info.name earlier.document.path.text document.path.text)
  | none => pure ()
  pure {
    modules := index.modules.bind info.name info
    byDocument := (number, info) :: index.byDocument
    entries := index.entries + 1 }

end SolutionIndex

/-! ## Counting classes -/

mutual

/-- A class and all classes in it, counted. -/
def ClassInfo.count : ClassInfo → Nat
  | ⟨_, _, _, _, _, _, ⟨nested⟩⟩ => 1 + countClasses nested

/-- All classes of a list, counted. -/
def countClasses : List (String × ClassInfo) → Nat
  | [] => 0
  | (_, info) :: rest => info.count + countClasses rest

end

/-- All classes of all modules, counted. -/
def SolutionIndex.classCount (index : SolutionIndex) : Nat :=
  index.modules.entries.foldr
    (fun entry count => countClasses entry.2.classes.entries + count) 0

end CyclicCalls.Index
