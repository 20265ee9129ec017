import CyclicCalls.Proofs.DeclaredPositions
/-!
# Which calls belong to which declaration

The calls of a declaration are listed by a walk with a list of nodes still to be looked at. The
walk of nodes that stand side by side is their walks one after the other (`walk_append`), so the
walk follows the tree: it lists the call at each position that is reached without going through
a class, once and in preorder (`exists_tracks_walk`). Seen from the module, these are the calls
below the definition with no class in between (`callBelow_iff`).

A function definition does not keep the scope around it, so no declaration stands inside another
one (`eq_of_declared_above`), and no call is listed for two declarations.

The main statement (`declarations_and_calls_located`) puts this together with the survey of the
declarations. It speaks of positions throughout: equal definitions and equal calls of one module
are counted as often as they stand in it.
-/

set_option autoImplicit false

namespace CyclicCalls.Source.Node

/-! ## The walk and the tree -/

/-- The walk of nodes side by side is their walks one after the other. -/
theorem walk_append (first second : List Node) :
    walk (first ++ second) = walk first ++ walk second := by
  fun_induction walk first with
  | case1 => rfl
  | case2 node rest isClass ih =>
      rw [List.cons_append, walk, if_pos isClass, ih]
  | case3 node rest plain ih =>
      rw [List.cons_append, walk, if_neg plain, ← List.append_assoc node.children, ih,
        List.append_assoc]

/-- Whether the walk goes on to the children of a node. -/
def walked (node : Node) : Bool :=
  !node.isClass

/-- What the walk takes from the first node: the call that it is, and what stands below it. -/
theorem walk_cons (node : Node) (rest : List Node) :
    walk (node :: rest) =
      node.call?.toList ++ (if walked node then walk node.children else []) ++ walk rest := by
  rw [walk]
  split
  · rename_i isClass
    have nothing : node.call? = none := by
      unfold call?
      split
      · exact absurd isClass Bool.false_ne_true
      · rfl
    rw [nothing, walked, isClass]
    rfl
  · rename_i plain
    rw [walk_append, walked, eq_false_of_ne_true plain, List.append_assoc]
    rfl

/-- The walk lists the calls that it is to find, each once and in preorder. -/
theorem exists_tracks_walk (nodes : List Node) :
    ∃ positions, Tracks walked call? nodes positions (walk nodes) ∧
      positions.Pairwise Position.Precedes := by
  -- The children of a node and the nodes after it are both smaller than the whole list.
  induction size : totalSize nodes using Nat.strongRecOn generalizing nodes with
  | ind total ih =>
      cases nodes with
      | nil =>
          rw [walk]
          exact ⟨[], .none (List.forall_mem_nil _), .nil⟩
      | cons node rest =>
          have smaller := sum_size_children_lt node
          rw [totalSize_cons] at size
          obtain ⟨inner, below, inward⟩ := ih (totalSize node.children) (by omega) node.children rfl
          obtain ⟨others, after, onward⟩ := ih (totalSize rest) (by omega) rest rfl
          have here : Tracks walked call? [node] _ _ := .node fun _ => below
          rw [walk_cons]
          exact ⟨_, here.append after,
            here.pairwise_append after (below.pairwise_node inward) onward⟩

/-! ## Calls below a definition -/

/-- The second position is that of a call strictly below the first, and no class stands
between the two. -/
def CallBelow (nodes : List Node) (function call : Position) : Prop :=
  function <+: call ∧ function ≠ call ∧ ((at? nodes call).bind call?).isSome = true ∧
    ∀ between node, function <+: between → function ≠ between → between <+: call →
      between ≠ call → at? nodes between = some node → node.isClass = false

/-- The calls below a definition are those that the walk of its parts is to find. -/
theorem callBelow_iff {nodes : List Node} {function call : Position} {node : Node}
    (stands : at? nodes function = some node) :
    CallBelow nodes function call ↔
      ∃ inner, call = function ++ inner ∧ Leads walked call? node.children inner := by
  constructor
  · rintro ⟨⟨inner, rfl⟩, strict, found, open_⟩
    have lower : inner ≠ [] := by simpa using strict
    rw [at?_append stands lower] at found
    refine ⟨inner, rfl, found, fun around other before differ here => ?_⟩
    have inward := ne_nil_of_at? here
    have plain := open_ (function ++ around) other (List.prefix_append _ _)
      (by simpa using inward) ((List.prefix_append_right_inj function).mpr before)
      (by simpa using differ) ((at?_append stands inward).trans here)
    rw [walked, plain]
    rfl
  · rintro ⟨inner, rfl, leads⟩
    obtain ⟨last, reached⟩ := leads.exists_at?
    have lower := ne_nil_of_at? reached
    refine ⟨List.prefix_append _ _, by simpa using lower, (at?_append stands lower).symm ▸ leads.1,
      ?_⟩
    rintro between other ⟨around, rfl⟩ above before differ here
    have inward : around ≠ [] := by simpa using above
    rw [at?_append stands inward] at here
    have passed := leads.2 around other ((List.prefix_append_right_inj function).mp before)
      (by simpa using differ) here
    rwa [walked, Bool.not_eq_true'] at passed

end CyclicCalls.Source.Node

namespace CyclicCalls.Index

open Source Solution

/-- A function is declared at a position of a module: its definition stands there, and every
node around keeps the scope. -/
def DeclaredAt (statements : List Stmt) (position : Position) : Prop :=
  Node.Leads Node.keepsScope Node.function? (Node.stmts statements) position

/-- No declaration stands inside another one. -/
theorem eq_of_declared_above {statements : List Stmt} {outer inner : Position}
    (above : DeclaredAt statements outer) (below : DeclaredAt statements inner)
    (before : outer <+: inner) : outer = inner := by
  by_contra differ
  obtain ⟨node, stands⟩ := above.exists_at?
  have found := above.1
  have keeps := below.2 outer node before differ stands
  rw [stands, Option.bind_some, Node.function?_of_keepsScope keeps] at found
  exact nomatch found

/-- The calls of a function definition at a position, with the positions at which they
stand. -/
theorem exists_call_positions {nodes : List Node} {position : Position} {node : Node}
    (stands : Node.at? nodes position = some node) :
    ∃ calls : List Position, calls.Nodup ∧
      (∀ call, call ∈ calls ↔ Node.CallBelow nodes position call) ∧
      List.Forall₂ (fun call value => (Node.at? nodes call).bind Node.call? = some value)
        calls node.calls := by
  obtain ⟨inner, tracks, -⟩ := Node.exists_tracks_walk node.children
  refine ⟨inner.map (position ++ ·), tracks.distinct.map (List.append_right_injective position),
    fun call => ?_, List.forall₂_map_left_iff.mpr ?_⟩
  · rw [Node.callBelow_iff stands, List.mem_map]
    refine exists_congr fun rest => ?_
    rw [tracks.exact, and_comm, eq_comm]
  · refine ((List.forall₂_and_left _ _).mpr
      ⟨fun _ => tracks.exists_cons, tracks.values⟩).imp ?_
    rintro call value ⟨⟨number, rest, rfl, _⟩, here⟩
    rwa [Node.at?_append stands (List.cons_ne_nil _ _)]

/-- What is found for each related pair can be kept beside the first of them. -/
theorem exists_beside {α β γ : Type} {related : α → β → Prop} {found : α → β → γ → Prop}
    (finds : ∀ one other, related one other → ∃ more, found one other more)
    {ones : List α} {others : List β} (pairs : List.Forall₂ related ones others) :
    ∃ joined : List (α × γ), joined.map Prod.fst = ones ∧
      List.Forall₂ (fun entry other => found entry.1 other entry.2) joined others := by
  induction pairs with
  | nil => exact ⟨[], rfl, .nil⟩
  | cons pair _ ih =>
      obtain ⟨more, here⟩ := finds _ _ pair
      obtain ⟨joined, firsts, rest⟩ := ih
      exact ⟨(_, more) :: joined, congrArg _ firsts, .cons here rest⟩

/-- A declaration stands at a position of a module: its definition is there, it has the
innermost class around, if there is one, and its calls are those at the given positions. -/
structure StandsAt (document : Document) (statements : List Stmt)
    (classes : List (Position × ClassInfo)) (position : Position) (calls : List Position)
    (declaration : Declaration) : Prop where
  document : declaration.document = document
  definition : Node.at? (Node.stmts statements) position =
    some (.stmt (.function declaration.definition))
  owner : OwnedBy none classes (Node.classAround? (Node.stmts statements) position)
    declaration.owner
  calls : List.Forall₂ (fun call value =>
    (Node.at? (Node.stmts statements) call).bind Node.call? = some value) calls declaration.calls

/-- **Declarations and calls are found where they stand.** For every module there are positions
of its declarations, in their order, and with each of them positions of its calls, in their
order, such that each declaration stands there; the positions of the declarations are exactly
the declared ones, each once; the positions of the calls, over all declarations together, are
all different; and those of one declaration are exactly the positions of calls below it with no
class in between. The classes of the declarations are told apart by their positions: each is
made by the class definition at its position, and no two are the same class. -/
theorem declarations_and_calls_located (entry : Nat) (document : Document)
    (statements : List Stmt) :
    ∃ (places : List (Position × List Position)) (classes : List (Position × ClassInfo)),
      List.Forall₂ (fun place declaration =>
          StandsAt document statements classes place.1 place.2 declaration)
        places (moduleInfo entry document statements).value.declarations ∧
      (places.map Prod.fst).Nodup ∧
      (∀ position, position ∈ places.map Prod.fst ↔ DeclaredAt statements position) ∧
      (places.flatMap Prod.snd).Nodup ∧
      (∀ place ∈ places, ∀ call,
        call ∈ place.2 ↔ Node.CallBelow (Node.stmts statements) place.1 call) ∧
      (∀ found ∈ classes, ∃ definition,
        Node.at? (Node.stmts statements) found.1 = some (.stmt (.classDef definition)) ∧
          MadeBy { entry, moduleName := document.moduleName } definition found.2) ∧
      classes.Pairwise (fun one other => one.1 ≠ other.1 ∧ one.2.id ≠ other.2.id) := by
  obtain ⟨positions, classes, survey⟩ := surveyed_ofBody document statements
    { entry, moduleName := document.moduleName } none 0
  have finds : ∀ position declaration,
      (declaration.document = document ∧
        (Node.at? (Node.stmts statements) position).bind Node.function? =
          some declaration.definition) ∧
        OwnedBy none classes (Node.classAround? (Node.stmts statements) position)
          declaration.owner →
      ∃ calls : List Position, (calls.Nodup ∧
        ∀ call, call ∈ calls ↔ Node.CallBelow (Node.stmts statements) position call) ∧
        StandsAt document statements classes position calls declaration := by
    rintro position declaration ⟨⟨home, here⟩, owned⟩
    obtain ⟨node, stands, defines⟩ := Option.bind_eq_some_iff.mp here
    rw [Node.function?_eq_some_iff.mp defines] at stands
    obtain ⟨calls, distinct, exact, values⟩ := exists_call_positions stands
    exact ⟨calls, ⟨distinct, exact⟩, home, stands, owned, values⟩
  have values := List.forall₂_map_right_iff.mp survey.tracks.values
  have homes := ((List.forall₂_and_left _ _).mpr
    ⟨ModuleInfo.document_of_mem_declarationsFrom document
      { entry, moduleName := document.moduleName } none 0 (Outline.ofBody statements),
      values.flip⟩).flip
  obtain ⟨places, rfl, found⟩ := exists_beside finds
    (List.Forall₂.mp (fun _ _ here owned => ⟨here, owned⟩) homes survey.owners)
  obtain ⟨listed, standing⟩ := (List.forall₂_and_left _ _).mp found
  refine ⟨places, classes, standing, survey.tracks.distinct, survey.tracks.exact,
    List.nodup_flatMap.mpr ⟨fun place among => (listed place among).1, ?_⟩,
    fun place among => (listed place among).2, survey.located.made, survey.located.distinct⟩
  -- A call below two declarations would put one of them inside the other.
  refine (List.pairwise_map.mp survey.tracks.distinct).imp_of_mem ?_
  intro one other here there differ call first second
  have above := ((listed one here).2 call).mp first |>.1
  have below := ((listed other there).2 call).mp second |>.1
  have outer := (survey.tracks.exact one.1).mp (List.mem_map_of_mem here)
  have inner := (survey.tracks.exact other.1).mp (List.mem_map_of_mem there)
  rcases List.prefix_or_prefix_of_prefix above below with before | after
  · exact differ (eq_of_declared_above outer inner before)
  · exact differ (eq_of_declared_above inner outer after).symm

end CyclicCalls.Index
