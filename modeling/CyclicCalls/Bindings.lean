/-!
# Bindings

The names bound in a scope, in the order in which they were first bound. A name
that is bound again keeps its place and takes the later value.
-/

set_option autoImplicit false

namespace CyclicCalls

/-- Names with their values, in the order of first binding. -/
structure Bindings (α : Type) where
  entries : List (String × α) := []

namespace Bindings

variable {α : Type}

/-- Replace the value of a name, or add the name at the end. -/
def bindEntry (name : String) (value : α) : List (String × α) → List (String × α)
  | [] => [(name, value)]
  | (other, old) :: entries =>
    if other == name then (other, value) :: entries
    else (other, old) :: bindEntry name value entries

/-- Bind a name. -/
def bind (bindings : Bindings α) (name : String) (value : α) : Bindings α :=
  ⟨bindEntry name value bindings.entries⟩

/-- Bind names from left to right. -/
def ofList (pairs : List (String × α)) : Bindings α :=
  pairs.foldl (fun bindings pair => bindings.bind pair.1 pair.2) {}

/-- The value of a name, if it is bound. -/
def find? (bindings : Bindings α) (name : String) : Option α :=
  bindings.entries.lookup name

/-- Whether a name is bound. -/
def contains (bindings : Bindings α) (name : String) : Bool :=
  (bindings.find? name).isSome

/-- The names in the order of first binding. -/
def names (bindings : Bindings α) : List String :=
  bindings.entries.map (·.1)

end Bindings

end CyclicCalls
