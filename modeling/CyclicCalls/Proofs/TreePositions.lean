import CyclicCalls.Source.Calls
import Mathlib.Data.List.Forall2
import Mathlib.Data.List.Nodup
/-!
# Positions in a syntax tree

Two parts of a tree may look alike, so a part is known by its position: the numbers of the
children on the way down to it (`Position`, `Node.at?`). The nodes around it stand at the
beginnings of its position.

A search of a tree looks for nodes of some kind and goes down through nodes of some kind. What
it is to find are the positions that `Node.Leads` describes: the node at the position is
looked for, and the search may go through all nodes around it. `Node.Tracks` says that a list
of positions holds each of these exactly once, and that the values read off there are given
ones in their order. It can be put together from the parts of a tree: from nodes that stand
side by side (`Tracks.append`), and from the children of a node (`Tracks.node`). Put together in
this way, positions that are in preorder stay in preorder (`Tracks.pairwise_append`,
`Tracks.pairwise_node`).
-/

set_option autoImplicit false

namespace CyclicCalls.Source

/-- A position below some nodes: the number of one of them, the number of one of its
children, and so on. -/
abbrev Position := List Nat

namespace Position

/-- The position when so many nodes stand before the first ones. -/
def shift (count : Nat) : Position → Position
  | [] => []
  | number :: rest => (count + number) :: rest

theorem shift_injective (count : Nat) : Function.Injective (shift count) := by
  intro first second same
  cases first with
  | nil => cases second with
    | nil => rfl
    | cons _ _ => exact nomatch same
  | cons number rest => cases second with
    | nil => exact nomatch same
    | cons other last =>
        rw [shift, shift, List.cons.injEq, Nat.add_left_cancel_iff] at same
        rw [same.1, same.2]

/-- A position comes before another in preorder: it is around the other, or the two part at some
node, and the first goes on with an earlier child of it. -/
inductive Precedes : Position → Position → Prop where
  | around (position : Position) {inner : Position} : inner ≠ [] →
      Precedes position (position ++ inner)
  | beside (common : Position) {earlier later : Nat} (left right : Position) : earlier < later →
      Precedes (common ++ earlier :: left) (common ++ later :: right)

theorem Precedes.cons {first second : Position} (precedes : Precedes first second) (number : Nat) :
    Precedes (number :: first) (number :: second) := by
  cases precedes with
  | around _ below => exact .around (number :: first) below
  | beside common left right order => exact .beside (number :: common) left right order

theorem Precedes.shift {first second : Position} (precedes : Precedes first second)
    (count : Nat) : Precedes (Position.shift count first) (Position.shift count second) := by
  cases precedes with
  | @around _ inner below =>
      cases first with
      | nil =>
          cases inner with
          | nil => exact absurd rfl below
          | cons number rest => exact .around [] (List.cons_ne_nil _ _)
      | cons number rest => exact .around ((count + number) :: rest) below
  | beside common left right order =>
      cases common with
      | nil => exact .beside [] left right (Nat.add_lt_add_left order count)
      | cons number rest => exact .beside ((count + number) :: rest) left right order

end Position

namespace Node

/-- The node at a position below some nodes. Nothing stands at the empty position. -/
def at? (nodes : List Node) : Position → Option Node
  | [] => none
  | number :: rest =>
    nodes[number]?.bind (fun node => if rest.isEmpty then some node else at? node.children rest)

@[simp] theorem at?_nil (nodes : List Node) : at? nodes [] = none := rfl

theorem at?_cons (nodes : List Node) (number : Nat) (rest : Position) :
    at? nodes (number :: rest) =
      nodes[number]?.bind
        (fun node => if rest = [] then some node else at? node.children rest) := by
  rw [at?]
  cases rest <;> rfl

/-- Going down from the node at a position. -/
theorem at?_append {nodes : List Node} {position : Position} {node : Node}
    (stands : at? nodes position = some node) {inner : Position} (below : inner ≠ []) :
    at? nodes (position ++ inner) = at? node.children inner := by
  induction position generalizing nodes with
  | nil => exact nomatch stands
  | cons number rest ih =>
      rw [at?_cons] at stands
      obtain ⟨first, listed, here⟩ := Option.bind_eq_some_iff.mp stands
      rw [List.cons_append, at?_cons, listed, Option.bind_some,
        if_neg (List.append_ne_nil_of_right_ne_nil rest below)]
      split at here
      · rename_i last
        cases here
        rw [last, List.nil_append]
      · exact ih here

theorem at?_append_left {first second : List Node} {number : Nat} {rest : Position}
    (inside : number < first.length) :
    at? (first ++ second) (number :: rest) = at? first (number :: rest) := by
  rw [at?_cons, at?_cons, List.getElem?_append_left inside]

theorem at?_singleton {node : Node} {inner : Position} (below : inner ≠ []) :
    at? [node] (0 :: inner) = at? node.children inner := by
  rw [at?_cons, List.getElem?_cons_zero, Option.bind_some, if_neg below]

@[simp] theorem at?_shift (first second : List Node) (position : Position) :
    at? (first ++ second) (position.shift first.length) = at? second position := by
  cases position with
  | nil => rfl
  | cons number rest =>
      rw [Position.shift, at?_cons, at?_cons,
        List.getElem?_append_right (Nat.le_add_right _ _), Nat.add_sub_cancel_left]

/-- A position of a node begins with the number of one of the nodes. -/
theorem exists_cons_of_at? {nodes : List Node} {position : Position} {node : Node}
    (stands : at? nodes position = some node) :
    ∃ number rest, position = number :: rest ∧ number < nodes.length := by
  cases position with
  | nil => exact nomatch stands
  | cons number rest =>
      rw [at?_cons] at stands
      obtain ⟨first, listed, _⟩ := Option.bind_eq_some_iff.mp stands
      exact ⟨number, rest, rfl, (List.getElem?_eq_some_iff.mp listed).1⟩

/-! ## What a search is to find -/

variable {α : Type} (passes : Node → Bool) (read : Node → Option α)

/-- A search that goes through the nodes that `passes` accepts finds the position: there is
something to read there, and all nodes around are passed through. -/
def Leads (nodes : List Node) (position : Position) : Prop :=
  ((at? nodes position).bind read).isSome = true ∧
    ∀ around node, around <+: position → around ≠ position → at? nodes around = some node →
      passes node = true

/-- The positions hold each position that a search is to find exactly once, and the values
are what is to be read there. -/
structure Tracks (nodes : List Node) (positions : List Position) (values : List α) : Prop where
  distinct : positions.Nodup
  exact : ∀ position, position ∈ positions ↔ Leads passes read nodes position
  values : List.Forall₂ (fun position value => (at? nodes position).bind read = some value)
    positions values

variable {passes : Node → Bool} {read : Node → Option α}

theorem not_leads_nil (nodes : List Node) : ¬ Leads passes read nodes [] :=
  fun leads => nomatch leads.1

theorem Leads.exists_at? {nodes : List Node} {position : Position}
    (leads : Leads passes read nodes position) : ∃ node, at? nodes position = some node := by
  obtain ⟨value, found⟩ := Option.isSome_iff_exists.mp leads.1
  obtain ⟨node, stands, _⟩ := Option.bind_eq_some_iff.mp found
  exact ⟨node, stands⟩

theorem ne_nil_of_at? {nodes : List Node} {position : Position} {node : Node}
    (stands : at? nodes position = some node) : position ≠ [] := by
  rintro rfl
  exact nomatch stands

/-- A search finds a node, or finds something below it after passing through it. -/
theorem leads_cons {nodes : List Node} {number : Nat} {rest : Position} :
    Leads passes read nodes (number :: rest) ↔
      ∃ node, nodes[number]? = some node ∧
        if rest = [] then (read node).isSome = true
        else passes node = true ∧ Leads passes read node.children rest := by
  cases listed : nodes[number]? with
  | none => simp [Leads, at?_cons, listed]
  | some node =>
      have below {inner : Position} (lower : inner ≠ []) :
          at? nodes (number :: inner) = at? node.children inner := by
        rw [at?_cons, listed, Option.bind_some, if_neg lower]
      have self : at? nodes [number] = some node := by
        rw [at?_cons, listed, Option.bind_some, if_pos rfl]
      by_cases last : rest = []
      · subst last
        simp only [if_true, Option.some.injEq, exists_eq_left']
        unfold Leads
        rw [self, Option.bind_some]
        refine ⟨And.left, fun found => ⟨found, ?_⟩⟩
        intro around other before different stands
        rcases List.prefix_cons_iff.mp before with rfl | ⟨inner, rfl, nothing⟩
        · exact nomatch stands
        · rw [List.prefix_nil.mp nothing] at different
          exact absurd rfl different
      · simp only [if_neg last, Option.some.injEq, exists_eq_left']
        constructor
        · rintro ⟨found, around⟩
          refine ⟨around [number] node (List.prefix_append [number] rest) (by simpa using last)
            self, below last ▸ found, fun inner other before different stands => ?_⟩
          exact around (number :: inner) other (List.prefix_cons_inj number |>.mpr before)
            (by simpa using different) (below (ne_nil_of_at? stands) ▸ stands)
        · rintro ⟨passed, found, around⟩
          refine ⟨below last ▸ found, fun outer other before different stands => ?_⟩
          rcases List.prefix_cons_iff.mp before with rfl | ⟨inner, rfl, within⟩
          · exact nomatch stands
          · by_cases here : inner = []
            · subst here
              cases self.symm.trans stands
              exact passed
            · exact around inner other within (by simpa using different) (below here ▸ stands)

/-- A search among two lists of nodes is a search among both. -/
theorem leads_append {first second : List Node} {position : Position} :
    Leads passes read (first ++ second) position ↔
      Leads passes read first position ∨
        ∃ inner, position = inner.shift first.length ∧ Leads passes read second inner := by
  cases position with
  | nil =>
      refine ⟨fun leads => absurd leads (not_leads_nil _), ?_⟩
      rintro (leads | ⟨inner, same, leads⟩)
      · exact absurd leads (not_leads_nil _)
      · cases inner with
        | nil => exact absurd leads (not_leads_nil _)
        | cons _ _ => exact nomatch same
  | cons number rest =>
      rw [leads_cons]
      by_cases inside : number < first.length
      · rw [List.getElem?_append_left inside, ← leads_cons]
        refine ⟨.inl, ?_⟩
        rintro (leads | ⟨inner, same, _⟩)
        · exact leads
        · cases inner with
          | nil => exact nomatch same
          | cons other _ =>
              rw [Position.shift, List.cons.injEq] at same
              omega
      · have beyond := Nat.le_of_not_lt inside
        rw [List.getElem?_append_right beyond, ← leads_cons]
        constructor
        · intro leads
          refine .inr ⟨(number - first.length) :: rest, ?_, leads⟩
          rw [Position.shift, Nat.add_sub_cancel' beyond]
        · rintro (leads | ⟨inner, same, leads⟩)
          · obtain ⟨node, listed, _⟩ := leads_cons.mp leads
            exact absurd (List.getElem?_eq_some_iff.mp listed).1 inside
          · cases inner with
            | nil => exact nomatch same
            | cons other last =>
                rw [Position.shift, List.cons.injEq] at same
                obtain ⟨rfl, rfl⟩ := same
                rwa [Nat.add_sub_cancel_left]

namespace Tracks

/-- There is nothing to be found in nodes with nothing to read that are not passed through. -/
theorem none {nodes : List Node}
    (silent : ∀ node ∈ nodes, read node = .none ∧ passes node = false) :
    Tracks passes read nodes [] [] := by
  refine ⟨.nil, fun position => ⟨(nomatch ·), fun leads => ?_⟩, .nil⟩
  cases position with
  | nil => exact absurd leads (not_leads_nil _)
  | cons number rest =>
      obtain ⟨node, listed, here⟩ := leads_cons.mp leads
      obtain ⟨nothing, closed⟩ := silent node (List.mem_of_getElem? listed)
      rw [nothing, closed] at here
      split at here
      · exact nomatch here
      · exact nomatch here.1

theorem exists_cons {nodes : List Node} {positions : List Position} {values : List α}
    (tracks : Tracks passes read nodes positions values) {position : Position}
    (member : position ∈ positions) :
    ∃ number rest, position = number :: rest ∧ number < nodes.length := by
  obtain ⟨node, stands⟩ := ((tracks.exact position).mp member).exists_at?
  exact exists_cons_of_at? stands

/-- The positions of two lists of nodes, one after the other. -/
theorem append {first second : List Node} {positions others : List Position} {values more : List α}
    (left : Tracks passes read first positions values)
    (right : Tracks passes read second others more) :
    Tracks passes read (first ++ second) (positions ++ others.map (Position.shift first.length))
      (values ++ more) := by
  refine ⟨?_, fun position => ?_, ?_⟩
  · refine List.nodup_append.mpr
      ⟨left.distinct, right.distinct.map (Position.shift_injective _), ?_⟩
    rintro position here other there rfl
    obtain ⟨number, rest, rfl, lower⟩ := left.exists_cons here
    obtain ⟨inner, _, same⟩ := List.mem_map.mp there
    cases inner with
    | nil => exact nomatch same
    | cons _ _ =>
        rw [Position.shift, List.cons.injEq] at same
        omega
  · rw [leads_append, List.mem_append, left.exact, List.mem_map]
    refine or_congr_right (exists_congr fun inner => ?_)
    rw [right.exact, and_comm, eq_comm]
  · refine List.rel_append ?_ (List.forall₂_map_left_iff.mpr ?_)
    · refine ((List.forall₂_and_left _ _).mpr ⟨fun _ => left.exists_cons, left.values⟩).imp ?_
      rintro position value ⟨⟨number, rest, rfl, lower⟩, value⟩
      rw [at?_append_left lower]
      exact value
    · refine right.values.imp fun position value here => ?_
      rw [at?_shift]
      exact here

/-- The positions of a node: its own, if there is something to read, and those below it, if it
is passed through. -/
theorem node {node : Node} {positions : List Position} {values : List α}
    (below : passes node = true → Tracks passes read node.children positions values) :
    Tracks passes read [node]
      ((if (read node).isSome then [[0]] else []) ++
        if passes node then positions.map (0 :: ·) else [])
      ((read node).toList ++ if passes node then values else []) := by
  have lower (passed : passes node = true) {inner : Position} (member : inner ∈ positions) :
      inner ≠ [] := by
    rintro rfl
    exact not_leads_nil _ (((below passed).exact []).mp member)
  have own {position : Position}
      (member : position ∈ if (read node).isSome then [[0]] else []) :
      position = [0] ∧ (read node).isSome = true := by
    split at member
    · exact ⟨List.mem_singleton.mp member, ‹_›⟩
    · exact nomatch member
  have inside {position : Position}
      (member : position ∈ if passes node then positions.map (0 :: ·) else []) :
      passes node = true ∧ ∃ inner ∈ positions, position = 0 :: inner := by
    split at member
    · obtain ⟨inner, among, rfl⟩ := List.mem_map.mp member
      exact ⟨‹_›, inner, among, rfl⟩
    · exact nomatch member
  refine ⟨List.nodup_append.mpr ⟨?_, ?_, ?_⟩, fun position => ⟨fun member => ?_, fun leads => ?_⟩,
    List.rel_append ?_ ?_⟩
  · split
    · exact List.nodup_singleton _
    · exact .nil
  · split
    · exact (below ‹_›).distinct.map List.cons_injective
    · exact .nil
  · rintro position here other there rfl
    obtain ⟨passed, inner, among, same⟩ := inside there
    rw [(own here).1, List.cons.injEq] at same
    exact lower passed among same.2.symm
  · rcases List.mem_append.mp member with here | there
    · obtain ⟨rfl, found⟩ := own here
      exact leads_cons.mpr ⟨node, rfl, by rwa [if_pos rfl]⟩
    · obtain ⟨passed, inner, among, rfl⟩ := inside there
      refine leads_cons.mpr ⟨node, rfl, ?_⟩
      rw [if_neg (lower passed among)]
      exact ⟨passed, ((below passed).exact inner).mp among⟩
  · cases position with
    | nil => exact absurd leads (not_leads_nil _)
    | cons number rest =>
        obtain ⟨found, listed, here⟩ := leads_cons.mp leads
        cases number with
        | succ _ => exact nomatch listed
        | zero =>
            cases listed
            split at here
            · rename_i last
              rw [last, if_pos here]
              exact List.mem_append_left _ (List.mem_singleton_self _)
            · rw [if_pos here.1]
              exact List.mem_append_right _
                (List.mem_map_of_mem (((below here.1).exact rest).mpr here.2))
  · cases found : read node with
    | none => exact .nil
    | some value => exact .cons found .nil
  · split
    · rename_i passed
      refine List.forall₂_map_left_iff.mpr ?_
      refine ((List.forall₂_and_left _ _).mpr
        ⟨fun _ => lower passed, (below passed).values⟩).imp ?_
      rintro inner value ⟨inward, here⟩
      rwa [at?_singleton inward]
    · exact .nil

/-- Positions below nodes that stand side by side are in preorder if they are on both sides. -/
theorem pairwise_append {first second : List Node} {positions others : List Position}
    {values more : List α} (left : Tracks passes read first positions values)
    (right : Tracks passes read second others more)
    (sorted : positions.Pairwise Position.Precedes) (later : others.Pairwise Position.Precedes) :
    (positions ++ others.map (Position.shift first.length)).Pairwise Position.Precedes := by
  refine List.pairwise_append.mpr ⟨sorted, List.pairwise_map.mpr ?_, ?_⟩
  · exact later.imp fun precedes => precedes.shift first.length
  · intro position here other there
    obtain ⟨number, rest, rfl, inside⟩ := left.exists_cons here
    obtain ⟨inner, among, rfl⟩ := List.mem_map.mp there
    obtain ⟨beyond, last, rfl, _⟩ := right.exists_cons among
    exact .beside [] rest last (Nat.lt_of_lt_of_le inside (Nat.le_add_right _ _))

/-- The position of a node comes before those below it. -/
theorem pairwise_node {node : Node} {positions : List Position} {values : List α}
    (below : Tracks passes read node.children positions values)
    (sorted : positions.Pairwise Position.Precedes) :
    ((if (read node).isSome then [[0]] else []) ++
      if passes node then positions.map (0 :: ·) else []).Pairwise Position.Precedes := by
  refine List.pairwise_append.mpr ⟨?_, ?_, ?_⟩
  · split
    · exact List.pairwise_singleton _ _
    · exact .nil
  · split
    · exact List.pairwise_map.mpr (sorted.imp fun precedes => precedes.cons 0)
    · exact .nil
  · intro position here other there
    split at here
    · split at there
      · obtain ⟨inner, among, rfl⟩ := List.mem_map.mp there
        obtain ⟨number, rest, rfl, _⟩ := below.exists_cons among
        rw [List.mem_singleton.mp here]
        exact .around [0] (List.cons_ne_nil number rest)
      · exact nomatch there
    · exact nomatch here

end Tracks

end Node

end CyclicCalls.Source
