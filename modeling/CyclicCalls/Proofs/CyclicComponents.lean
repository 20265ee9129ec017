import CyclicCalls.Proofs.CleanVerdict
import CyclicCalls.Proofs.RootSearches
import Mathlib.Logic.Relation
/-!
# Components of a call graph

Two methods are in one component of a graph when each of them reaches the other by
calls. A component is *cyclic* when it has two methods or a method that calls itself.
Each method of a cyclic component calls one of its methods, so the component is
recurrent.

A run does not report a chain for every cyclic component. A closed cycle ends the whole
search, and what the search was inside of stays visited without having been searched
to the end. If a method of one component calls into another one before it calls back
into its own, the cycle found there may cost the report of the first
(`unreported_self_call`).

It does not cost more than that. Consider the first search that visits a method of a
cyclic component. If it closes a cycle while no method of the component is on the
trail, then none was visited yet; and it cannot end with such a method settled. So it
closes a cycle below a method of the component: a cycle of the component itself, or of
another cyclic component that can be reached from it
(`cyclic_component_leads_to_chain`).
-/

set_option autoImplicit false

namespace CyclicCalls

namespace CallGraph

variable {graph : CallGraph}

/-! ## Components -/

/-- There is a sequence of calls from one method to another. -/
def Reaches (graph : CallGraph) : Symbol → Symbol → Prop :=
  Relation.ReflTransGen graph.Calls

/-- The methods that reach a method and are reached from it. -/
def component (graph : CallGraph) (method : Symbol) : Set Symbol :=
  {other | graph.Reaches method other ∧ graph.Reaches other method}

/-- A component with two methods, or with a method that calls itself. -/
structure IsCyclicComponent (graph : CallGraph) (methods : Set Symbol) : Prop where
  component : ∃ method, methods = graph.component method
  cyclic : (∃ first ∈ methods, ∃ second ∈ methods, first ≠ second) ∨
    ∃ method ∈ methods, graph.Calls method method

theorem mem_component_self (method : Symbol) : method ∈ graph.component method :=
  ⟨.refl, .refl⟩

/-- A component is the component of each of its methods. -/
theorem component_eq_of_mem {method other : Symbol} (member : other ∈ graph.component method) :
    graph.component other = graph.component method := by
  obtain ⟨onward, back⟩ := member
  ext third
  constructor
  · rintro ⟨out, home⟩
    exact ⟨onward.trans out, home.trans back⟩
  · rintro ⟨out, home⟩
    exact ⟨back.trans out, home.trans onward⟩

/-- Along a chain of calls the first method reaches all others, and all others reach
the last one. -/
theorem reaches_of_isChain {first last : Symbol} {rest : List Symbol}
    (chain : List.IsChain graph.Calls (first :: rest ++ [last])) {method : Symbol}
    (among : method ∈ first :: rest) : graph.Reaches first method ∧ graph.Reaches method last := by
  induction rest generalizing first method with
  | nil =>
      rw [List.mem_singleton.mp among]
      exact ⟨.refl, .single (List.isChain_cons_cons.mp chain).1⟩
  | cons second rest ih =>
      obtain ⟨calls, onward⟩ := List.isChain_cons_cons.mp chain
      rcases List.mem_cons.mp among with rfl | later
      · exact ⟨.refl, .head calls (ih onward List.mem_cons_self).2⟩
      · obtain ⟨reached, reaching⟩ := ih onward later
        exact ⟨.head calls reached, reaching⟩

/-- The methods of a cycle are in one cyclic component. -/
theorem IsCycle.mem_component {first : Symbol} {rest : List Symbol}
    (cycle : graph.IsCycle first rest) {method : Symbol} (among : method ∈ first :: rest) :
    method ∈ graph.component first :=
  reaches_of_isChain cycle.calls among

theorem IsCycle.isCyclicComponent {first : Symbol} {rest : List Symbol}
    (cycle : graph.IsCycle first rest) : graph.IsCyclicComponent (graph.component first) where
  component := ⟨first, rfl⟩
  cyclic := by
    cases rest with
    | nil => exact .inr ⟨first, mem_component_self first, (List.isChain_cons_cons.mp cycle.calls).1⟩
    | cons second rest =>
        refine .inl ⟨first, mem_component_self first, second, ?_, ?_⟩
        · exact cycle.mem_component (List.mem_cons_of_mem _ List.mem_cons_self)
        · rintro rfl
          exact (List.nodup_cons.mp cycle.distinct).1 List.mem_cons_self

namespace IsCyclicComponent

variable {methods : Set Symbol}

/-- A cyclic component is the component of each of its methods. -/
theorem eq_component (cyclic : graph.IsCyclicComponent methods) {method : Symbol}
    (member : method ∈ methods) : methods = graph.component method := by
  obtain ⟨center, rfl⟩ := cyclic.component
  exact (component_eq_of_mem member).symm

theorem nonempty (cyclic : graph.IsCyclicComponent methods) : methods.Nonempty := by
  obtain ⟨center, rfl⟩ := cyclic.component
  exact ⟨center, mem_component_self center⟩

/-- Each method of a cyclic component calls a method of the component. -/
theorem exists_next (cyclic : graph.IsCyclicComponent methods) {method : Symbol}
    (member : method ∈ methods) : ∃ next ∈ methods, graph.Calls method next := by
  have own := cyclic.eq_component member
  by_cases alone : ∃ other ∈ methods, other ≠ method
  · obtain ⟨other, inside, different⟩ := alone
    rw [own] at inside
    obtain ⟨onward, back⟩ := inside
    rcases Relation.ReflTransGen.cases_head onward with same | ⟨next, calls, rest⟩
    · exact absurd same.symm different
    · refine ⟨next, ?_, calls⟩
      rw [own]
      exact ⟨.single calls, rest.trans back⟩
  · have only : ∀ other ∈ methods, other = method := by
      intro other inside
      by_contra different
      exact alone ⟨other, inside, different⟩
    rcases cyclic.cyclic with ⟨first, left, second, right, different⟩ | ⟨caller, inside, calls⟩
    · exact absurd ((only first left).trans (only second right).symm) different
    · rw [only caller inside] at calls
      exact ⟨method, member, calls⟩

/-- In an unambiguous graph each method of a cyclic component is a caller. -/
theorem mem_callers (cyclic : graph.IsCyclicComponent methods) (unambiguous : graph.Unambiguous)
    {method : Symbol} (member : method ∈ methods) : method ∈ graph.callers := by
  obtain ⟨next, inside, calls⟩ := cyclic.exists_next member
  rw [cyclic.eq_component member] at inside
  have symbol : method ∈ graph.symbols := by
    rcases Relation.ReflTransGen.cases_tail inside.2 with same | ⟨previous, _, called⟩
    · exact same ▸ calls.mem_symbols
    · exact Calls.mem_symbols called
  obtain ⟨caller, known, same⟩ := calls.exists_caller
  exact unambiguous (mem_symbols_of_caller known) symbol same ▸ known

/-- A cyclic component is recurrent when no caller is ignored. -/
theorem recurrent (cyclic : graph.IsCyclicComponent methods) (unambiguous : graph.Unambiguous)
    {policy : Policy} (regarded : ∀ caller ∈ graph.callers, policy.ignores caller = false) :
    Search.Recurrent graph policy methods :=
  ⟨fun method member => regarded method (cyclic.mem_callers unambiguous member),
    fun _ => cyclic.exists_next⟩

/-- A cycle that can be reached from a cyclic component lies in it, or in another cyclic
component that can be reached from all its methods. -/
theorem within_or_below (cyclic : graph.IsCyclicComponent methods) {first : Symbol}
    {rest : List Symbol} (cycle : graph.IsCycle first rest) {source : Symbol}
    (inside : source ∈ methods) (below : graph.Reaches source first) :
    (∀ method ∈ first :: rest, method ∈ methods) ∨
      ∃ other, graph.IsCyclicComponent other ∧ other ≠ methods ∧
        (∀ method ∈ first :: rest, method ∈ other) ∧
        ∀ source ∈ methods, ∀ target ∈ other, graph.Reaches source target := by
  by_cases own : first ∈ methods
  · left
    intro method among
    rw [cyclic.eq_component own]
    exact cycle.mem_component among
  · refine .inr ⟨graph.component first, cycle.isCyclicComponent, ?_,
      fun _ => cycle.mem_component, ?_⟩
    · rintro rfl
      exact own (mem_component_self first)
    · intro start member target reached
      rw [cyclic.eq_component inside] at member
      exact (member.2.trans below).trans reached.1

end IsCyclicComponent

end CallGraph

/-! ## Cycles closed below a recurrent set -/

/-- The steps of a trail reach whatever the latest one offers. -/
theorem Trail.Linked.reaches {graph : CallGraph} {trail : Trail} (linked : trail.Linked graph)
    {method : Symbol} (offers : trail.Offers graph method) {step : Symbol}
    (among : step ∈ trail.steps) : graph.Reaches step method := by
  have called := offers.called
  have calls := linked.calls
  clear offers linked
  generalize trail.steps = steps at among calls called
  induction steps generalizing method with
  | nil => exact nomatch among
  | cons latest earlier ih =>
      have last : graph.Calls latest method := called latest rfl
      obtain ⟨offered, path⟩ := List.isChain_cons.mp calls
      rcases List.mem_cons.mp among with rfl | before
      · exact .single last
      · exact (ih before path offered).tail last

namespace Search

variable {graph : CallGraph} {policy : Policy} {methods : Set Symbol}

theorem Recurrent.kept_pending (recurrent : Recurrent graph policy methods) :
    Kept graph policy (Pending methods) where
  enter := fun pending => pending.enter _
  pass := fun wellFormed scans pending => (scans.pending recurrent rfl wellFormed pending).1

/-- **A search that loses a recurrent set closes a cycle below it.** When the set was
pending before the search and is not afterwards, the search found a cycle that methods of
the set reach. -/
theorem search_found_below (recurrent : Recurrent graph policy methods)
    (unambiguous : graph.Unambiguous) (symbols : ∀ method ∈ methods, method ∈ graph.symbols)
    {root : Symbol} (symbol : root ∈ graph.symbols) {state : State} (empty : state.trail = {})
    (start : Pending methods state)
    (lost : ¬ Pending methods (search graph policy root state).2) :
    ∃ first rest, Found graph policy root state (search graph policy root state).2 first rest ∧
      ∃ method ∈ methods, graph.Reaches method first := by
  have wellFormed := State.wellFormed_of_trail_empty empty
  obtain ⟨found, after, outcome⟩ : ∃ found after, search graph policy root state = (found, after) :=
    ⟨_, _, rfl⟩
  have scans := scans_search graph policy root state
  rw [outcome] at lost scans ⊢
  cases found with
  | false => exact absurd (scans.pending recurrent rfl wellFormed start).1 lost
  | true =>
      obtain ⟨first, rest, point, found, closing, pending⟩ :=
        search_found_of_kept recurrent.kept_pending unambiguous symbol empty start outcome
      refine ⟨first, rest, found, ?_⟩
      by_contra apart
      -- No method of the set is on the trail where the cycle is closed, so none was visited.
      refine lost fun method member seen => ?_
      rw [State.knows, closing.visited] at seen
      have held := pending method member seen
      obtain ⟨step, among, same⟩ :=
        List.mem_map.mp (closing.wellFormed.backed _ (Trail.holds_iff.mp held))
      have equal := unambiguous (closing.linked.symbols step among) (symbols method member) same
      exact absurd ⟨method, member, equal ▸ closing.linked.reaches closing.offers among⟩ apart

/-- What holds before the searches of a run and not after them is lost in one of them. -/
theorem exists_mem_rootSearches {motive : State → Prop} {roots : List Symbol} {state : State}
    (start : motive state)
    (lost : ¬ motive ((rootSearches graph policy roots state).foldl
      (fun _ made => made.after) state)) :
    ∃ made ∈ rootSearches graph policy roots state, motive made.before ∧ ¬ motive made.after := by
  induction roots generalizing state with
  | nil => exact absurd start lost
  | cons root roots ih =>
      cases seen : state.knows root with
      | true =>
          rw [rootSearches_of_seen roots seen] at lost ⊢
          exact ih start lost
      | false =>
          rw [rootSearches_of_unseen roots seen] at lost ⊢
          by_cases still : motive (search graph policy root state).2
          · obtain ⟨made, member, held⟩ := ih still lost
            exact ⟨made, List.mem_cons_of_mem _ member, held⟩
          · exact ⟨⟨root, state⟩, List.mem_cons_self, start, still⟩

end Search

namespace CallGraph

open Search

variable {graph : CallGraph} {policy : Policy}

/-- The chain of every cycle that a run closes is reported. -/
theorem mem_cycles_of_closed (unambiguous : graph.Unambiguous) {made : RootSearch graph policy}
    (member : made ∈ graph.searches policy) {cycle : List Symbol} (among : cycle ∈ made.closed) :
    chainOf cycle ∈ graph.cycles policy := by
  rw [cycles_eq_eraseDups unambiguous policy, List.mem_eraseDups]
  exact List.mem_map_of_mem (List.mem_flatMap.mpr ⟨made, member, among⟩)

/-- The first search of a run that visits a recurrent set closes a cycle below it. -/
theorem exists_search_below {methods : Set Symbol} (recurrent : Recurrent graph policy methods)
    (inhabited : methods.Nonempty) (unambiguous : graph.Unambiguous)
    (symbols : ∀ method ∈ methods, method ∈ graph.symbols) :
    ∃ made ∈ graph.searches policy, ∃ first rest,
      (∀ method ∈ methods, made.before.knows method = false) ∧
        (∃ method ∈ methods, made.after.knows method = true) ∧
        Found graph policy made.root made.before made.after first rest ∧
        ∃ source ∈ methods, graph.Reaches source first := by
  have gone := not_pending_run recurrent inhabited
  rw [run, runFrom_eq_foldl graph policy graph.callers rfl] at gone
  have start : Pending methods {} := fun _ _ seen => absurd seen Bool.false_ne_true
  obtain ⟨made, member, pending, lost⟩ := exists_mem_rootSearches start gone
  obtain ⟨among, empty, _⟩ := mem_rootSearches rfl member
  obtain ⟨first, rest, found, below⟩ := search_found_below recurrent unambiguous symbols
    (mem_symbols_of_caller among) empty pending lost
  refine ⟨made, member, first, rest, ?_, ?_, found, below⟩
  · -- The trail is empty before the search, so what is pending was not visited.
    intro method inside
    refine Bool.eq_false_iff.mpr fun seen => ?_
    have held := pending method inside seen
    rw [empty] at held
    exact Bool.false_ne_true held
  · by_contra unvisited
    exact lost fun method inside seen => absurd ⟨method, inside, seen⟩ unvisited

/-- **A cyclic component leads to a chain.** In a graph with symbols of one table none of
whose callers is ignored, the first search that visits a cyclic component closes a cycle,
and its chain is reported. The methods of this cycle lie in the component, or in another
cyclic component that can be reached from it. In particular, a cyclic component from which
no other one can be reached has a chain all of whose methods lie in it. -/
theorem cyclic_component_leads_to_chain {table : SymbolTable} (reachable : table.Reachable)
    {graph : CallGraph} (fromTable : graph.Over table) {policy : Policy}
    (regarded : ∀ caller ∈ graph.callers, policy.ignores caller = false) {methods : Set Symbol}
    (cyclic : graph.IsCyclicComponent methods) :
    (∃ made ∈ graph.searches policy, ∃ first rest,
      (∀ method ∈ methods, made.before.knows method = false) ∧
        (∃ method ∈ methods, made.after.knows method = true) ∧
        made.closed = [first :: rest ++ [first]] ∧
        graph.IsCycle first rest ∧ chainOf (first :: rest ++ [first]) ∈ graph.cycles policy ∧
        ((∀ method ∈ first :: rest, method ∈ methods) ∨
          ∃ other, graph.IsCyclicComponent other ∧ other ≠ methods ∧
            (∀ method ∈ first :: rest, method ∈ other) ∧
            ∀ source ∈ methods, ∀ target ∈ other, graph.Reaches source target)) ∧
    ((∀ other, graph.IsCyclicComponent other →
        (∃ source ∈ methods, ∃ target ∈ other, graph.Reaches source target) → other = methods) →
      ∃ first rest, graph.IsCycle first rest ∧
        chainOf (first :: rest ++ [first]) ∈ graph.cycles policy ∧
        ∀ method ∈ first :: rest, method ∈ methods) := by
  have unambiguous := fromTable.unambiguous reachable
  obtain ⟨made, member, first, rest, before, after, found, source, inside, below⟩ :=
    exists_search_below (cyclic.recurrent unambiguous regarded) cyclic.nonempty unambiguous
      (fun method member => mem_symbols_of_caller (cyclic.mem_callers unambiguous member))
  have closed : made.closed = [first :: rest ++ [first]] := by
    rw [RootSearch.closed, found.traced]
    rfl
  have reported := mem_cycles_of_closed unambiguous member (closed ▸ List.mem_singleton_self _)
  have place := cyclic.within_or_below found.cycle inside below
  refine ⟨⟨made, member, first, rest, before, after, closed, found.cycle, reported, place⟩, ?_⟩
  intro last
  refine ⟨first, rest, found.cycle, reported, ?_⟩
  rcases place with within | ⟨other, otherCyclic, different, _, reached⟩
  · exact within
  · obtain ⟨target, there⟩ := otherCyclic.nonempty
    exact absurd (last other otherCyclic ⟨source, inside, target, there,
      reached source inside target there⟩) different

end CallGraph

/-! ## A component without a chain -/

namespace Sample

/-- Here `load` calls `retry` before it calls itself, and `retry` calls itself. -/
def detour : CallGraph :=
  CallGraph.ofRecords [⟨load, [some retry, some load]⟩, ⟨retry, [some retry]⟩] {}

theorem detour_over : detour.Over table := by
  unfold CallGraph.Over
  decide

theorem detour_reaches_retry {method : Symbol} (reached : detour.Reaches retry method) :
    method = retry := by
  induction reached with
  | refl => rfl
  | tail _ calls ih =>
      subst ih
      exact List.mem_singleton.mp calls

theorem detour_reaches_load {method : Symbol} (reached : detour.Reaches load method) :
    method = load ∨ method = retry := by
  induction reached with
  | refl => exact .inl rfl
  | tail _ calls ih =>
      rcases ih with rfl | rfl
      · rcases List.mem_cons.mp calls with again | back
        · exact .inr again
        · exact .inl (List.mem_singleton.mp back)
      · exact .inr (List.mem_singleton.mp calls)

/-- The component of `load` has no other method. -/
theorem eq_load_of_mem_component {method : Symbol} (member : method ∈ detour.component load) :
    method = load := by
  obtain ⟨onward, back⟩ := member
  rcases detour_reaches_load onward with rfl | rfl
  · rfl
  · exact absurd (detour_reaches_retry back) (by decide)

theorem detour_isCyclicComponent : detour.IsCyclicComponent (detour.component load) :=
  ⟨⟨load, rfl⟩, .inr ⟨load, CallGraph.mem_component_self load, by decide⟩⟩

end Sample

namespace CallGraph

open Search

/-- The run searches from `load`, closes the cycle of `retry`, and never comes back to the
call of `load` by itself: the component of `load` has no chain. -/
theorem unreported_self_call :
    Sample.table.Reachable ∧ Sample.detour.Over Sample.table ∧
      (∀ caller ∈ Sample.detour.callers, ({} : Policy).ignores caller = false) ∧
      Sample.detour.IsCyclicComponent (Sample.detour.component Sample.load) ∧
      ¬ ∃ first rest, chainOf (first :: rest ++ [first]) ∈ Sample.detour.cycles {} ∧
        ∀ method ∈ first :: rest, method ∈ Sample.detour.component Sample.load := by
  refine ⟨Sample.table_reachable, Sample.detour_over, by decide, Sample.detour_isCyclicComponent,
    ?_⟩
  rintro ⟨first, rest, reported, inside⟩
  have start := Sample.eq_load_of_mem_component (inside first List.mem_cons_self)
  subst start
  rw [cycles_eq_of_guarded (show guardedRunFrom Sample.detour {} Sample.detour.callers {} =
    .ok ⟨[3, 1], {}, ⟨["app.retry -> app.retry"]⟩⟩ from rfl), List.mem_singleton] at reported
  have name := takeWhile_chainOf Sample.load Sample.load rest (by decide)
  rw [reported] at name
  exact absurd name (by decide)

/-- The search from `load` closes a cycle all the same: one that `load` reaches. -/
theorem cyclic_component_leads_to_chain_detour :
    (∀ caller ∈ Sample.detour.callers, ({} : Policy).ignores caller = false) ∧
      Sample.detour.IsCyclicComponent (Sample.detour.component Sample.load) ∧
      ∃ first rest, Sample.detour.IsCycle first rest ∧
        chainOf (first :: rest ++ [first]) ∈ Sample.detour.cycles {} ∧
        Sample.detour.Reaches Sample.load first := by
  have regarded : ∀ caller ∈ Sample.detour.callers, ({} : Policy).ignores caller = false := by
    decide
  have cyclic := Sample.detour_isCyclicComponent
  obtain ⟨⟨_, _, first, rest, _, _, _, cycle, reported, place⟩, _⟩ :=
    cyclic_component_leads_to_chain Sample.table_reachable Sample.detour_over regarded cyclic
  refine ⟨regarded, cyclic, first, rest, cycle, reported, ?_⟩
  rcases place with within | ⟨other, _, _, among, reached⟩
  · exact (within first List.mem_cons_self).1
  · exact reached _ (mem_component_self Sample.load) first (among first List.mem_cons_self)

end CallGraph

end CyclicCalls
