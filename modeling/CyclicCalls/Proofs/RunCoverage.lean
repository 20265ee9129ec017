import CyclicCalls.Proofs.UnvisitedPaths
/-!
# What a run covers

A search that closes a cycle is given up, and callees that it did not come to stay unvisited. So
a single search promises little. A run makes up for it: it comes to every caller, and a caller
that is unvisited when its turn comes is visited first of all in a search of its own. After a run
every caller was visited, whatever was visited before (`runFrom_visits`).

Three things follow.

* A run visits nothing but callers and their callees (`run_visits_coverage`), for a search visits
  the method it starts from and otherwise only methods that are called.
* A fresh run that closes no cycle has scanned the callees of whatever it visited
  (`run_complete`), so it has visited exactly the callers and their callees.
* A second run finds every caller visited and makes no search at all (`runFrom_of_known`).

Main statement: `run_covers_callers`.
-/

set_option autoImplicit false

namespace CyclicCalls

namespace CallGraph

/-- The numbers of the callers and of their callees. -/
def coverage (graph : CallGraph) : Set Nat :=
  {number | ∃ caller ∈ graph.callers,
    caller.index = number ∨ ∃ callee ∈ graph.callees caller, callee.index = number}

variable {graph : CallGraph}

theorem index_mem_coverage {caller : Symbol} (among : caller ∈ graph.callers) :
    caller.index ∈ graph.coverage :=
  ⟨caller, among, .inl rfl⟩

/-- Whatever is called is a callee of a caller. -/
theorem Links.mem_coverage {caller callee : Nat} (links : graph.Links caller callee) :
    callee ∈ graph.coverage := by
  obtain ⟨source, target, rfl, rfl, calls⟩ := links
  obtain ⟨known, among, same⟩ := calls.exists_caller
  refine ⟨known, among, .inr ⟨target, ?_, rfl⟩⟩
  rw [callees_congr same]
  exact calls

end CallGraph

namespace Search

open CallGraph

variable {graph : CallGraph} {policy : Policy}

/-! ## Nothing but callers and callees -/

/-- A search from a caller visits callers and callees only. -/
theorem search_visits_coverage {root : Symbol} (among : root ∈ graph.callers) {state : State}
    {number : Nat} (member : number ∈ (search graph policy root state).2.visited) :
    number ∈ state.visited ∨ number ∈ graph.coverage := by
  rcases search_visited_open member with before | ⟨_, path⟩
  · exact .inl before
  · cases path with
    | refl => exact .inr (index_mem_coverage among)
    | tail _ step => exact .inr step.1.mem_coverage

theorem run_visits_coverage (graph : CallGraph) (policy : Policy) {state : State}
    (empty : state.trail = {}) :
    ∀ number ∈ (run graph policy state).1.visited,
      number ∈ state.visited ∨ number ∈ graph.coverage := by
  refine runFrom_induction graph policy
    (motive := fun later => ∀ number ∈ later.visited,
      number ∈ state.visited ∨ number ∈ graph.coverage)
    ?_ empty (fun number before => .inl before)
  intro root among later _ _ earlier number member
  rcases search_visits_coverage among member with before | here
  · exact earlier number before
  · exact .inr here

/-! ## Runs that close no cycle -/

/-- The callees of whatever was visited were visited. -/
def Complete (graph : CallGraph) (state : State) : Prop :=
  ∀ number ∈ state.visited, ∀ callee, graph.Links number callee → callee ∈ state.visited

/-- A search that closes no cycle leaves no callee of a visited method behind. -/
theorem Complete.search {root : Symbol} {state : State} (complete : Complete graph state)
    (clear : (search graph policy root state).1 = false) :
    Complete graph (search graph policy root state).2 := by
  have scans := scans_search graph policy root state
  rw [clear] at scans
  intro number member callee links
  rcases scans.closes_up.2 number member with before | scanned
  · exact scans.visited_subset (complete number before callee links)
  · exact scanned callee links

/-- A fresh run without chains leaves no callee of a visited method behind. -/
theorem run_complete (clean : (run graph policy {}).1.log.chains = []) :
    Complete graph (run graph policy {}).1 := by
  -- The log of a run only grows, so it has no chain at any point of this one.
  refine runFrom_induction graph policy
    (motive := fun later => later.log.chains = [] → Complete graph later)
    ?_ (rfl : ({} : State).trail = {}) (fun _ _ member => nomatch member) clean
  intro root _ state empty _ earlier cleanAfter
  have kept := (search_keeps graph policy root (State.wellFormed_of_trail_empty empty)).log
  rw [cleanAfter] at kept
  have complete := earlier (List.prefix_nil.mp kept)
  cases found : (search graph policy root state).1 with
  | false => exact complete.search found
  | true =>
      have scans := scans_search graph policy root state
      rw [found] at scans
      exact absurd cleanAfter scans.chains_ne_nil

/-! ## A second run -/

/-- Roots that were visited before are passed over. -/
theorem runFrom_of_known {roots : List Symbol} {state : State}
    (known : ∀ root ∈ roots, state.knows root = true) :
    runFrom graph policy roots state = (state, none) := by
  induction roots with
  | nil => rfl
  | cons root roots ih =>
      rw [runFrom, if_pos (known root List.mem_cons_self)]
      exact ih fun other member => known other (List.mem_cons_of_mem root member)

end Search

namespace CallGraph

open Search

/-- **A run covers every caller, and a second one changes nothing.** A run from any state with an
empty trail is not stopped and leaves the trail empty. Afterwards every caller was visited, and
nothing was visited but what was visited before, the callers and their callees. A run from the
fresh state that finds no chain has visited exactly the callers and their callees. A second run
ends in the state in which the first one ended, with the same chains. -/
theorem run_covers_callers (graph : CallGraph) (policy : Policy) {state : State}
    (empty : state.trail = {}) :
    (run graph policy state).2 = none ∧
    (run graph policy state).1.trail = {} ∧
    (∀ caller ∈ graph.callers, caller.index ∈ (run graph policy state).1.visited) ∧
    state.visited ⊆ (run graph policy state).1.visited ∧
    (∀ number ∈ (run graph policy state).1.visited,
      number ∈ state.visited ∨ number ∈ graph.coverage) ∧
    (state = {} → (run graph policy state).1.log.chains = [] →
      ∀ number, number ∈ (run graph policy state).1.visited ↔ number ∈ graph.coverage) ∧
    run graph policy (run graph policy state).1 = ((run graph policy state).1, none) := by
  have covers : ∀ caller ∈ graph.callers, (run graph policy state).1.knows caller = true :=
    fun caller among => runFrom_visits graph policy empty among
  have keeps : Keeps state (run graph policy state).1 := runFrom_keeps graph policy _ empty
  refine ⟨runFrom_not_stopped graph policy graph.callers empty, run_trail_empty graph policy empty,
    fun caller among => State.knows_iff.mp (covers caller among), keeps.visited,
    run_visits_coverage graph policy empty, ?_, runFrom_of_known covers⟩
  rintro rfl clean number
  constructor
  · intro member
    rcases run_visits_coverage graph policy empty number member with before | here
    · exact nomatch before
    · exact here
  · rintro ⟨caller, among, rfl | ⟨callee, called, rfl⟩⟩
    · exact State.knows_iff.mp (covers caller among)
    · exact run_complete clean _ (State.knows_iff.mp (covers caller among)) _
        (Calls.links called)

end CallGraph

namespace Sample

/-- Two callers and no cycle: `main` calls `load` and `retry`, and `load` calls `parse`. -/
def layered : CallGraph :=
  CallGraph.ofRecords [⟨main, [some load, some retry]⟩, ⟨load, [some parse, none]⟩] {}

end Sample

namespace CallGraph

open Search

/-- A fresh run over the graph without cycles visits all four methods, two of which have no row.
With `parse` visited before, a run over the small graph covers its four callers, and a second one
changes nothing. -/
theorem run_covers_callers_sample :
    (run Sample.layered {} {}).1.log.chains = [] ∧
      (∀ number, number ∈ (run Sample.layered {} {}).1.visited ↔
        number ∈ Sample.layered.coverage) ∧
      3 ∈ (run Sample.layered {} {}).1.visited ∧
      (∀ caller ∈ Sample.graph.callers,
        caller.index ∈ (run Sample.graph {} { visited := [2] }).1.visited) ∧
      run Sample.graph {} (run Sample.graph {} { visited := [2] }).1 =
        ((run Sample.graph {} { visited := [2] }).1, none) := by
  have clean : (run Sample.layered {} {}).1.log.chains = [] := by decide +kernel
  obtain ⟨-, -, -, -, -, exactly, -⟩ :=
    run_covers_callers Sample.layered {} (rfl : ({} : State).trail = {})
  obtain ⟨-, -, covers, -, -, -, again⟩ :=
    run_covers_callers Sample.graph {} (rfl : ({ visited := [2] } : State).trail = {})
  have leaf : 3 ∈ Sample.layered.coverage :=
    ⟨Sample.main, by decide, .inr ⟨Sample.retry, by decide, rfl⟩⟩
  exact ⟨clean, exactly rfl clean, (exactly rfl clean 3).mpr leaf, covers, again⟩

end CallGraph

end CyclicCalls
