import CyclicCalls.Source.Node
/-!
# The calls below a node

The calls below a node are listed by a walk over a list of nodes still to be
looked at, the next one first. A call is listed before the calls inside it, and
parts of a node are walked in their fixed order. The body of a class definition
is not entered, except when the walk starts at the class itself.
-/

set_option autoImplicit false

namespace CyclicCalls.Source

/-- A call expression: the line it starts on and what is called. -/
structure Call where
  line : Nat
  function : Expr

namespace Node

/-- The call that a node is, if it is one. -/
def call? : Node → Option Call
  | .expr (.call line function _ _) => some ⟨line, function⟩
  | _ => none

/-- Whether a node is a class definition. -/
def isClass : Node → Bool
  | .stmt (.classDef _) => true
  | _ => false

/-- The calls among the nodes to be looked at and below them. -/
def walk (pending : List Node) : List Call :=
  match pending with
  | [] => []
  | node :: rest =>
    if node.isClass then walk rest
    else node.call?.toList ++ walk (node.children ++ rest)
termination_by totalSize pending
decreasing_by
  · have := sum_size_children_lt node
    simp only [totalSize_cons]
    omega
  · have := sum_size_children_lt node
    simp only [totalSize_cons, totalSize_append]
    omega

/-- The calls below a node, the node itself not counted. -/
def calls (node : Node) : List Call :=
  walk node.children

end Node

end CyclicCalls.Source
