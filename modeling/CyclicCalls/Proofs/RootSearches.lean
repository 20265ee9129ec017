import CyclicCalls.Proofs.ReportedCycles
import Mathlib.Data.List.Rotate
/-!
# The root searches of a run

A run is a sequence of searches, one from each caller that is unvisited when its turn
comes (`rootSearches`). What was visited before a search stays visited, and a cycle is
closed only over methods that were not. So the cycles closed by two searches of a run
have no method in common (`rootSearches_pairwise_disjoint`): a run never closes the
same cycle twice, not even from another of its methods.

The log of a run forgets a chain that is already there. This may only happen to cycles
whose methods have the same names, since a chain starts with the name of the first
method (`takeWhile_chainOf`). If the names tell the methods of the graph apart, the
chains of a run are as many as the searches that closed a cycle
(`root_searches_are_disjoint`).
-/

set_option autoImplicit false

namespace CyclicCalls

namespace ChainLog

/-- A log that holds the first occurrences of some chains holds those of one chain
more, when that is added. -/
theorem chains_add {log : ChainLog} {chains : List String} (start : log.chains = chains.eraseDups)
    (chain : String) : (log.add chain).chains = (chains ++ [chain]).eraseDups := by
  rw [List.eraseDups_append, add]
  by_cases seen : chain ∈ chains
  · have held : log.contains chain = true := by
      rw [contains, start]
      exact List.contains_iff_mem.mpr (List.mem_eraseDups.mpr seen)
    rw [if_pos held, start]
    simp [List.removeAll, seen]
  · have absent : ¬ log.contains chain = true := by
      rw [contains, start]
      exact fun held => seen (List.mem_eraseDups.mp (List.contains_iff_mem.mp held))
    rw [if_neg absent, start]
    simp [List.removeAll, seen, List.eraseDups_cons]

end ChainLog

/-- A list without repetitions is its own list of first occurrences. -/
theorem eraseDups_eq_self {chains : List String} (distinct : chains.Nodup) :
    chains.eraseDups = chains := by
  induction chains with
  | nil => rfl
  | cons chain chains ih =>
      obtain ⟨absent, later⟩ := List.nodup_cons.mp distinct
      have kept : chains.filter (fun other => !other == chain) = chains :=
        List.filter_eq_self.mpr fun other member => by
          simpa using fun same : other = chain => absent (same ▸ member)
      rw [List.eraseDups_cons, kept, ih later]

/-- The chain of a cycle starts with the name of the first method, up to the first
space. -/
theorem takeWhile_chainOf (first last : Symbol) (rest : List Symbol)
    (solid : ' ' ∉ first.qualifiedName.toList) :
    (chainOf (first :: rest ++ [last])).toList.takeWhile (· != ' ') =
      first.qualifiedName.toList := by
  obtain ⟨tail, opened⟩ : ∃ tail, (chainOf (first :: rest ++ [last])).toList =
      first.qualifiedName.toList ++ ' ' :: tail := by
    cases rest with
    | nil =>
        refine ⟨("-> " ++ last.qualifiedName).toList, ?_⟩
        simp [chainOf, Text.join, chainSeparator]
    | cons second rest =>
        refine ⟨("-> " ++ chainOf (second :: rest ++ [last])).toList, ?_⟩
        simp [chainOf, Text.join, chainSeparator]
  rw [opened, List.takeWhile_append_of_pos, List.takeWhile_cons_of_neg (by simp),
    List.append_nil]
  intro character member
  simpa using fun space : character = ' ' => solid (space ▸ member)

namespace Search

variable {graph : CallGraph} {policy : Policy}

/-! ## The searches of a run -/

/-- A search that a run makes: the root it starts from, and the state it starts in. -/
structure RootSearch (graph : CallGraph) (policy : Policy) where
  root : Symbol
  before : State

namespace RootSearch

/-- Whether the search closed a cycle. -/
def found (made : RootSearch graph policy) : Bool :=
  (search graph policy made.root made.before).1

/-- The state after the search. -/
def after (made : RootSearch graph policy) : State :=
  (search graph policy made.root made.before).2

/-- The cycles that the search closed, each from its first method back to it. -/
def closed (made : RootSearch graph policy) : List (List Symbol) :=
  (tracedSearch graph policy made.root { state := made.before }).2.closed

end RootSearch

/-- The searches that a run makes from the given roots. -/
def rootSearches (graph : CallGraph) (policy : Policy) :
    List Symbol → State → List (RootSearch graph policy)
  | [], _ => []
  | root :: roots, state =>
    if state.knows root then rootSearches graph policy roots state
    else
      let made : RootSearch graph policy := ⟨root, state⟩
      made :: rootSearches graph policy roots made.after

theorem rootSearches_of_seen {root : Symbol} (roots : List Symbol) {state : State}
    (seen : state.knows root = true) :
    rootSearches graph policy (root :: roots) state = rootSearches graph policy roots state :=
  if_pos seen

theorem rootSearches_of_unseen {root : Symbol} (roots : List Symbol) {state : State}
    (unseen : state.knows root = false) :
    rootSearches graph policy (root :: roots) state =
      ⟨root, state⟩ :: rootSearches graph policy roots (search graph policy root state).2 :=
  if_neg (by simp [unseen])

/-- A run over an empty trail ends in the state after its last search. -/
theorem runFrom_eq_foldl (graph : CallGraph) (policy : Policy) (roots : List Symbol)
    {state : State} (empty : state.trail = {}) :
    runFrom graph policy roots state =
      ((rootSearches graph policy roots state).foldl (fun _ made => made.after) state, none) := by
  induction roots generalizing state with
  | nil => rfl
  | cons root roots ih =>
      rw [runFrom_cons graph policy root roots empty]
      cases seen : state.knows root with
      | true =>
          rw [rootSearches_of_seen roots seen]
          exact ih empty
      | false =>
          rw [rootSearches_of_unseen roots seen]
          exact ih (search_trail_empty graph policy root empty)

/-- Every search of a run starts from a root, over an empty trail, and knows what was
visited before the run. -/
theorem mem_rootSearches {roots : List Symbol} {state : State} (empty : state.trail = {})
    {made : RootSearch graph policy} (member : made ∈ rootSearches graph policy roots state) :
    made.root ∈ roots ∧ made.before.trail = {} ∧ state.visited ⊆ made.before.visited := by
  induction roots generalizing state with
  | nil => exact nomatch member
  | cons root roots ih =>
      cases seen : state.knows root with
      | true =>
          rw [rootSearches_of_seen roots seen] at member
          obtain ⟨among, rest⟩ := ih empty member
          exact ⟨List.mem_cons_of_mem root among, rest⟩
      | false =>
          rw [rootSearches_of_unseen roots seen] at member
          rcases List.mem_cons.mp member with rfl | later
          · exact ⟨List.mem_cons_self, empty, List.Subset.refl _⟩
          · obtain ⟨among, still, grown⟩ :=
              ih (search_trail_empty graph policy root empty) later
            have kept := search_keeps graph policy root (State.wellFormed_of_trail_empty empty)
            exact ⟨List.mem_cons_of_mem root among, still, List.Subset.trans kept.visited grown⟩

namespace RootSearch

theorem traced_eq (made : RootSearch graph policy) :
    tracedSearch graph policy made.root { state := made.before } =
      (made.found, ⟨made.after, made.closed⟩) := by
  unfold found after closed
  rw [← tracedSearch_erase graph policy made.root { state := made.before }]
  rfl

/-- What is known of a search that a run makes. -/
inductive Closes (made : RootSearch graph policy) : Prop where
  /-- It closed one cycle, over methods that were not visited before. -/
  | one (first : Symbol) (rest : List Symbol) : made.found = true →
      made.closed = [first :: rest ++ [first]] →
      Found graph policy made.root made.before made.after first rest → Closes made
  /-- It closed none. -/
  | none : made.found = false → made.closed = [] → made.after.log = made.before.log → Closes made

theorem closes (unambiguous : graph.Unambiguous) {made : RootSearch graph policy}
    (symbol : made.root ∈ graph.symbols) (empty : made.before.trail = {}) : made.Closes := by
  cases outcome : made.found with
  | true =>
      obtain ⟨first, rest, found⟩ := search_found unambiguous symbol empty outcome
      refine .one first rest outcome ?_ found
      rw [closed, found.traced]
      rfl
  | false =>
      have scans := scans_search graph policy made.root made.before
      rw [show (search graph policy made.root made.before).1 = false from outcome] at scans
      refine .none outcome ?_ scans.log_eq
      rw [closed, scans.tracedSearch_clear]

/-- The methods of the cycles that a search closed are visited in it. -/
theorem Closes.visits {made : RootSearch graph policy} (closes : made.Closes)
    {cycle : List Symbol} (among : cycle ∈ made.closed) {method : Symbol}
    (member : method ∈ cycle) :
    made.before.knows method = false ∧ made.after.knows method = true := by
  cases closes with
  | none _ closed _ =>
      rw [closed] at among
      exact nomatch among
  | one first rest _ closed found =>
      rw [closed, List.mem_singleton] at among
      have listed : method ∈ first :: rest := CallGraph.mem_of_mem_closed (among ▸ member)
      exact ⟨found.fresh method listed, found.visited method listed⟩

end RootSearch

/-- **The cycles closed by two searches of a run have no method in common.** -/
theorem rootSearches_pairwise_disjoint (unambiguous : graph.Unambiguous) {roots : List Symbol}
    (symbols : ∀ root ∈ roots, root ∈ graph.symbols) {state : State} (empty : state.trail = {}) :
    (rootSearches graph policy roots state).Pairwise (fun earlier later =>
      ∀ first ∈ earlier.closed, ∀ second ∈ later.closed, first.Disjoint second) := by
  induction roots generalizing state with
  | nil => exact .nil
  | cons root roots ih =>
      have onward := fun other member => symbols other (List.mem_cons_of_mem root member)
      cases seen : state.knows root with
      | true =>
          rw [rootSearches_of_seen roots seen]
          exact ih onward empty
      | false =>
          have after := search_trail_empty graph policy root empty
          rw [rootSearches_of_unseen roots seen]
          refine List.pairwise_cons.mpr ⟨?_, ih onward after⟩
          intro later made first here second there method left right
          obtain ⟨among, still, grown⟩ := mem_rootSearches after made
          have visited := ((RootSearch.closes unambiguous (symbols root List.mem_cons_self)
            empty).visits here left).2
          have fresh := ((RootSearch.closes unambiguous (onward _ among) still).visits
            there right).1
          rw [State.knows_of_subset grown visited] at fresh
          exact nomatch fresh

/-- The log of a run has the chains of the cycles that its searches close, each where
it occurs first. -/
theorem runFrom_chains (unambiguous : graph.Unambiguous) {roots : List Symbol}
    (symbols : ∀ root ∈ roots, root ∈ graph.symbols) {state : State} (empty : state.trail = {})
    (chains : List String) (start : state.log.chains = chains.eraseDups) :
    (runFrom graph policy roots state).1.log.chains =
      (chains ++ ((rootSearches graph policy roots state).flatMap (·.closed)).map
        chainOf).eraseDups := by
  induction roots generalizing state chains with
  | nil => simpa [runFrom, rootSearches] using start
  | cons root roots ih =>
      have onward := fun other member => symbols other (List.mem_cons_of_mem root member)
      rw [runFrom_cons graph policy root roots empty]
      cases seen : state.knows root with
      | true =>
          rw [rootSearches_of_seen roots seen]
          exact ih onward empty chains start
      | false =>
          have after := search_trail_empty graph policy root empty
          rw [rootSearches_of_unseen roots seen, if_neg Bool.false_ne_true, List.flatMap_cons,
            List.map_append, ← List.append_assoc]
          refine ih onward after _ ?_
          have closes : RootSearch.Closes (⟨root, state⟩ : RootSearch graph policy) :=
            RootSearch.closes unambiguous (symbols root List.mem_cons_self) empty
          cases closes with
          | none _ closed log =>
              rw [closed, List.map_nil, List.append_nil, ← start]
              exact congrArg ChainLog.chains log
          | one first rest _ closed found =>
              rw [closed, List.map_singleton, ← ChainLog.chains_add start]
              exact congrArg ChainLog.chains found.log

/-- Searches close as many cycles as there are searches that close one. -/
theorem length_flatMap_closed {searches : List (RootSearch graph policy)}
    (all : ∀ made ∈ searches, made.Closes) :
    (searches.flatMap (·.closed)).length = searches.countP (·.found) := by
  induction searches with
  | nil => rfl
  | cons made searches ih =>
      have later := ih fun other member => all other (List.mem_cons_of_mem made member)
      rw [List.flatMap_cons, List.length_append, later, List.countP_cons]
      cases all made List.mem_cons_self with
      | none found closed _ => simp [found, closed]
      | one _ _ found closed _ => simp [found, closed, Nat.add_comm]

end Search

/-! ## The cycles of a run -/

namespace CallGraph

open Search

variable {graph : CallGraph} {policy : Policy}

/-- The searches that a run over the callers of a graph makes. -/
def searches (graph : CallGraph) (policy : Policy) : List (RootSearch graph policy) :=
  rootSearches graph policy graph.callers {}

/-- The cycles that a run over the callers of a graph closes, in the order of closing. -/
def closedCycles (graph : CallGraph) (policy : Policy) : List (List Symbol) :=
  (graph.searches policy).flatMap (·.closed)

theorem closes_of_mem_searches (unambiguous : graph.Unambiguous)
    {made : RootSearch graph policy} (member : made ∈ graph.searches policy) : made.Closes := by
  obtain ⟨among, empty, _⟩ := mem_rootSearches rfl member
  exact RootSearch.closes unambiguous (mem_symbols_of_caller among) empty

theorem exists_of_mem_closedCycles (unambiguous : graph.Unambiguous) {methods : List Symbol}
    (member : methods ∈ graph.closedCycles policy) :
    ∃ first rest, methods = first :: rest ++ [first] ∧ graph.IsCycle first rest := by
  obtain ⟨made, among, closed⟩ := List.mem_flatMap.mp member
  cases closes_of_mem_searches unambiguous among with
  | none _ nothing _ =>
      rw [nothing] at closed
      exact nomatch closed
  | one first rest _ single found =>
      rw [single] at closed
      exact ⟨first, rest, List.mem_singleton.mp closed, found.cycle⟩

/-- The cycles of a run are pairwise disjoint. -/
theorem closedCycles_pairwise_disjoint (unambiguous : graph.Unambiguous) (policy : Policy) :
    (graph.closedCycles policy).Pairwise List.Disjoint := by
  refine List.pairwise_flatMap.mpr ⟨fun made member => ?_,
    rootSearches_pairwise_disjoint unambiguous (fun _ => mem_symbols_of_caller) rfl⟩
  cases closes_of_mem_searches unambiguous member with
  | none _ closed _ => rw [closed]; exact .nil
  | one _ _ _ closed _ => rw [closed]; exact List.pairwise_singleton _ _

/-- The chains of a graph are those of the cycles that its run closes, each where it
occurs first. -/
theorem cycles_eq_eraseDups (unambiguous : graph.Unambiguous) (policy : Policy) :
    graph.cycles policy = ((graph.closedCycles policy).map chainOf).eraseDups :=
  runFrom_chains unambiguous (fun _ => mem_symbols_of_caller) rfl [] rfl

/-- If names tell the methods of a graph apart and have no spaces, no two cycles of a run
have the same chain. -/
theorem nodup_map_chainOf_closedCycles (unambiguous : graph.Unambiguous) (policy : Policy)
    (distinct : ∀ first ∈ graph.symbols, ∀ second ∈ graph.symbols,
      first.qualifiedName = second.qualifiedName → first = second)
    (solid : ∀ method ∈ graph.symbols, ' ' ∉ method.qualifiedName.toList) :
    ((graph.closedCycles policy).map chainOf).Nodup := by
  refine List.pairwise_map.mpr ((closedCycles_pairwise_disjoint unambiguous policy).imp_of_mem ?_)
  intro left right leftMember rightMember disjoint same
  obtain ⟨first, rest, rfl, cycle⟩ := exists_of_mem_closedCycles unambiguous leftMember
  obtain ⟨other, others, rfl, second⟩ := exists_of_mem_closedCycles unambiguous rightMember
  have symbol := cycle.mem_symbols List.mem_cons_self
  have otherSymbol := second.mem_symbols List.mem_cons_self
  -- Both chains start with the name of their first method.
  have names : first.qualifiedName.toList = other.qualifiedName.toList := by
    rw [← takeWhile_chainOf first first rest (solid first symbol), same,
      takeWhile_chainOf other other others (solid other otherSymbol)]
  have equal := distinct first symbol other otherSymbol (String.toList_injective names)
  exact disjoint List.mem_cons_self (equal ▸ List.mem_cons_self)

/-- **The cycles of a run are disjoint.** In a graph with symbols of one table, a run is
the sequence of its searches, and each of them closes one cycle or none, as its answer
says. The cycles of two searches have no method in common, so none is a rotation of
another. The chains of the run are those of the cycles in the order of closing, each
where it occurs first; and if names tell the methods apart and have no spaces, there is
one for each search that closed a cycle. -/
theorem root_searches_are_disjoint {table : SymbolTable} (reachable : table.Reachable)
    {graph : CallGraph} (fromTable : graph.Over table) (policy : Policy) :
    run graph policy {} = ((graph.searches policy).foldl (fun _ made => made.after) {}, none) ∧
      (∀ made ∈ graph.searches policy,
        tracedSearch graph policy made.root { state := made.before } =
            (made.found, ⟨made.after, made.closed⟩) ∧
          (made.found = true ∧ (∃ first rest, made.closed = [first :: rest ++ [first]] ∧
              graph.IsCycle first rest) ∨
            made.found = false ∧ made.closed = [])) ∧
      (graph.searches policy).Pairwise (fun earlier later =>
        ∀ first ∈ earlier.closed, ∀ second ∈ later.closed, first.Disjoint second) ∧
      (graph.closedCycles policy).Pairwise (fun first second =>
        ¬ first.dropLast.IsRotated second.dropLast) ∧
      graph.cycles policy = ((graph.closedCycles policy).map chainOf).eraseDups ∧
      ((∀ first ∈ graph.symbols, ∀ second ∈ graph.symbols,
          first.qualifiedName = second.qualifiedName → first = second) →
        (∀ method ∈ graph.symbols, ' ' ∉ method.qualifiedName.toList) →
        graph.cycles policy = (graph.closedCycles policy).map chainOf ∧
          (graph.cycles policy).length = (graph.searches policy).countP (·.found)) := by
  have unambiguous := fromTable.unambiguous reachable
  have chains := cycles_eq_eraseDups unambiguous policy
  refine ⟨runFrom_eq_foldl graph policy graph.callers rfl, fun made member => ⟨?_, ?_⟩,
    rootSearches_pairwise_disjoint unambiguous (fun _ => mem_symbols_of_caller) rfl, ?_, chains,
    ?_⟩
  · exact made.traced_eq
  · cases closes_of_mem_searches unambiguous member with
    | none found closed _ => exact .inr ⟨found, closed⟩
    | one first rest found closed known => exact .inl ⟨found, first, rest, closed, known.cycle⟩
  · refine (closedCycles_pairwise_disjoint unambiguous policy).imp_of_mem ?_
    intro left right leftMember _ disjoint rotated
    obtain ⟨first, rest, rfl, _⟩ := exists_of_mem_closedCycles unambiguous leftMember
    have common : first ∈ right.dropLast := by
      rw [← rotated.mem_iff, List.dropLast_concat]
      exact List.mem_cons_self
    exact disjoint List.mem_cons_self (List.dropLast_subset _ common)
  · intro distinct solid
    have kept : graph.cycles policy = (graph.closedCycles policy).map chainOf := by
      rw [chains, eraseDups_eq_self
        (nodup_map_chainOf_closedCycles unambiguous policy distinct solid)]
    refine ⟨kept, ?_⟩
    rw [kept, List.length_map]
    exact length_flatMap_closed fun made => closes_of_mem_searches unambiguous

/-- In the small graph two searches close a cycle. -/
theorem root_searches_are_disjoint_sample :
    (∀ first ∈ Sample.graph.symbols, ∀ second ∈ Sample.graph.symbols,
        first.qualifiedName = second.qualifiedName → first = second) ∧
      (∀ method ∈ Sample.graph.symbols, ' ' ∉ method.qualifiedName.toList) ∧
      (Sample.graph.searches {}).countP (·.found) = 2 := by
  have distinct : ∀ first ∈ Sample.graph.symbols, ∀ second ∈ Sample.graph.symbols,
      first.qualifiedName = second.qualifiedName → first = second := by decide
  have solid : ∀ method ∈ Sample.graph.symbols, ' ' ∉ method.qualifiedName.toList := by decide
  have reported : Sample.graph.cycles {} =
      ["app.load -> app.parse -> app.load", "app.retry -> app.retry"] :=
    cycles_eq_of_guarded (show guardedRunFrom Sample.graph {} Sample.graph.callers {} =
      .ok ⟨[3, 2, 1, 0], {}, ⟨["app.load -> app.parse -> app.load",
        "app.retry -> app.retry"]⟩⟩ from rfl)
  obtain ⟨_, _, _, _, _, counted⟩ :=
    root_searches_are_disjoint Sample.table_reachable Sample.graph_over {}
  have length := (counted distinct solid).2
  rw [reported] at length
  exact ⟨distinct, solid, length.symm⟩

end CallGraph

end CyclicCalls
