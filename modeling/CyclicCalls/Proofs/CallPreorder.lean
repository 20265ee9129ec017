import CyclicCalls.Proofs.CallAttribution
/-!
# Calls in preorder

The walk over a tree keeps the nodes still to be looked at in a list. Written the plain way, it is
a recursion: the nodes below a node are its children in order, each followed by what is below it,
and classes are left out with everything inside them (`Node.below`). The walk lists the calls of
that recursion (`walk_eq_filterMap`). What is proved is about a whole list of pending nodes: the
children of the first node come in front of the others, as they would in the recursion.

A program keeps such a list as a stack. It takes the next node off the end and puts the children on
in reverse. `stackWalk` is this loop with a bound on its turns, and no answer when the bound is not
enough. The size of the tree is enough (`stackWalk_reverse`).

In which order the calls stand can also be said of positions, without a recursion: a call stands
before the calls inside it, and what is inside an earlier child stands before what is inside a later
one (`Position.Precedes`). The positions of the calls are in this order (`exists_tracks_walk`).

Main statement: `calls_in_preorder`.
-/

set_option autoImplicit false

namespace CyclicCalls.Source

namespace Node

/-! ## The recursion -/

theorem size_le_totalSize {node : Node} {nodes : List Node} (member : node ∈ nodes) :
    node.size ≤ totalSize nodes := by
  induction nodes with
  | nil => exact nomatch member
  | cons first nodes ih =>
      rw [totalSize_cons]
      rcases List.mem_cons.mp member with rfl | later
      · exact Nat.le_add_right _ _
      · exact Nat.le_trans (ih later) (Nat.le_add_left _ _)

theorem size_lt_of_mem_children {node child : Node} (member : child ∈ node.children) :
    child.size < node.size :=
  Nat.lt_of_le_of_lt (size_le_totalSize member) (sum_size_children_lt node)

/-- The nodes below a node in preorder: its children in order, each before what is below it.
Classes are left out, with all that is below them. -/
def below (node : Node) : List Node :=
  node.children.attach.flatMap (fun child =>
    if child.1.isClass then [] else child.1 :: below child.1)
termination_by node.size
decreasing_by exact size_lt_of_mem_children child.2

theorem below_eq (node : Node) :
    node.below =
      node.children.flatMap (fun child => if child.isClass then [] else child :: child.below) := by
  rw [below]
  simp only [List.flatMap_subtype, List.unattach_attach]

/-- **The walk lists the calls of the recursion.** -/
theorem walk_eq_filterMap (pending : List Node) :
    walk pending =
      (pending.flatMap (fun node =>
        if node.isClass then [] else node :: node.below)).filterMap call? := by
  fun_induction walk pending with
  | case1 => rfl
  | case2 node rest isClass ih =>
      rw [ih, List.flatMap_cons, if_pos isClass, List.nil_append]
  | case3 node rest plain ih =>
      rw [ih, List.flatMap_append, ← below_eq, List.flatMap_cons, if_neg plain, List.cons_append]
      cases called : node.call? with
      | none => rw [List.filterMap_cons_none called]; rfl
      | some call => rw [List.filterMap_cons_some called]; rfl

/-! ## The loop with a stack -/

/-- The walk as a loop over a stack of nodes, the next one last. It has no answer when the stack
is not empty after the given number of turns. -/
def stackWalk : Nat → List Node → Option (List Call)
  | 0, _ => none
  | turns + 1, stack =>
    match stack.getLast? with
    | none => some []
    | some node =>
      if node.isClass then stackWalk turns stack.dropLast
      else (stackWalk turns (stack.dropLast ++ node.children.reverse)).map
        (node.call?.toList ++ ·)

/-- **The loop ends with the calls of the walk**, within as many turns as its nodes are large. -/
theorem stackWalk_reverse {turns : Nat} {pending : List Node} (enough : totalSize pending < turns) :
    stackWalk turns pending.reverse = some (walk pending) := by
  induction turns generalizing pending with
  | zero => exact absurd enough (Nat.not_lt_zero _)
  | succ turns ih =>
      cases pending with
      | nil =>
          rw [walk]
          rfl
      | cons node rest =>
          have smaller := sum_size_children_lt node
          rw [totalSize_cons] at enough
          rw [stackWalk, List.reverse_cons, List.getLast?_concat, List.dropLast_concat, walk]
          show (if node.isClass = true then _ else _) = _
          by_cases isClass : node.isClass = true
          · have fits : totalSize rest < turns := by omega
            rw [if_pos isClass, if_pos isClass, ih fits]
          · have fits : totalSize (node.children ++ rest) < turns := by
              rw [totalSize_append]
              omega
            rw [if_neg isClass, if_neg isClass, ← List.reverse_append, ih fits, Option.map_some]

/-! ## The calls below a node -/

/-- **The calls below a node are listed in preorder.** The node may be of any kind, also a class.
They are the calls that the recursion meets, the loop with a stack ends with them, and their
positions, each once, are in the order in which the tree is read: a call before the calls inside
it, and the children of a node one after the other. -/
theorem calls_in_preorder (node : Node) :
    node.calls = node.below.filterMap call? ∧
    (∀ turns, node.size ≤ turns → stackWalk turns node.children.reverse = some node.calls) ∧
    ∃ positions, Tracks walked call? node.children positions node.calls ∧
      positions.Pairwise Position.Precedes := by
  refine ⟨?_, ?_, exists_tracks_walk node.children⟩
  · rw [calls, walk_eq_filterMap, ← below_eq]
  · intro turns enough
    exact stackWalk_reverse (Nat.lt_of_lt_of_le (sum_size_children_lt node) enough)

end Node

namespace Sample

/-- A call of a function by its name. -/
def named (line : Nat) (name : String) (arguments : List Expr) : Expr :=
  .call line (.name name) arguments []

/-- A class with a decorator, a base class that is called for, a class inside it, and a method
that calls with calls as arguments. -/
def decorated : Node :=
  .stmt (.classDef {
    line := 2
    name := "Service"
    bases := [named 2 "base" []]
    keywords := []
    body := [
      .classDef {
        line := 3
        name := "Options"
        bases := []
        keywords := []
        body := [.simple [named 4 "default" []]]
        decorators := [] },
      .function {
        line := 5
        name := "handle"
        parameters := .mk [] [] none [] [] none []
        body := [.simple [named 6 "send" [named 6 "header" [], named 6 "content" []]]]
        decorators := []
        returns := none }]
    decorators := [named 1 "register" []] })

end Sample

/-- The class that the walk starts at is entered and the one inside it is not. The decorator
stands first in the text and is the last part of the definition. -/
theorem Node.calls_in_preorder_decorated :
    Node.stackWalk Sample.decorated.size Sample.decorated.children.reverse =
      some [⟨2, .name "base"⟩, ⟨6, .name "send"⟩, ⟨6, .name "header"⟩, ⟨6, .name "content"⟩,
        ⟨1, .name "register"⟩] := by
  rw [(Node.calls_in_preorder Sample.decorated).2.1 _ (Nat.le_refl _)]
  simp [Sample.decorated, Sample.named, Node.calls, Node.walk, Node.children, Node.ofStmt,
    Node.ofExpr, Node.ofParameters, Node.exprs, Node.stmts, Node.optional, Node.optionals,
    Node.isClass, Node.call?]

end CyclicCalls.Source
