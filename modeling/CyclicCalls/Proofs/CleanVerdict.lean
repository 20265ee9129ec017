import CyclicCalls.Proofs.ReportedCycles
import Mathlib.Data.Set.Basic
/-!
# A graph without chains has no cycles

A search may miss cycles: it stops at the first one, and what it visited is not
searched again. It does not miss all of them. Call a set of methods *recurrent*
when the policy ignores none of them and each of them calls one of them; the
methods of a cycle without ignored methods are an example. A search that closes no
cycle cannot be done with a method of such a set. When it takes the step of that
method back, it has met all its callees, and one of them is in the set. That callee
was visited and is not on the trail, for it would have closed a cycle there; so the
search was done with a method of the set before. It follows that a method of the
set which was visited is still on the trail (`Scans.pending`).

After a run without chains the trail is empty and every caller was visited, so
there is no recurrent set (`cycles_ne_nil_of_recurrent`). With the cycles that
chains are made of, this decides whether a graph has a cycle at all
(`cycles_decide_acyclicity`).
-/

set_option autoImplicit false

namespace CyclicCalls

namespace Search

variable {graph : CallGraph} {policy : Policy}

/-! ## Recurrent sets -/

/-- The policy ignores no method of the set, and each of them calls one of them. -/
structure Recurrent (graph : CallGraph) (policy : Policy) (methods : Set Symbol) : Prop where
  regarded : ∀ method ∈ methods, policy.ignores method = false
  continues : ∀ method ∈ methods, ∃ next ∈ methods, graph.Calls method next

/-- What was visited of the set is still on the trail. -/
def Pending (methods : Set Symbol) (state : State) : Prop :=
  ∀ method ∈ methods, state.knows method = true → state.trail.holds method = true

/-- The search is done with a method: it was visited and is not on the trail. -/
def Settled (state : State) (method : Symbol) : Prop :=
  state.knows method = true ∧ state.trail.holds method = false

theorem Settled.of_keeps {before after : State} {method : Symbol} (settled : Settled before method)
    (keeps : Keeps before after) : Settled after method :=
  ⟨State.knows_of_subset keeps.visited settled.1, keeps.trail ▸ settled.2⟩

/-- A method that is not ignored and closes no cycle is not on the trail. -/
theorem not_held_of_not_closes {state : State} {method : Symbol}
    (notClosing : closes policy state method = false) (regarded : policy.ignores method = false) :
    state.trail.holds method = false := by
  unfold closes at notClosing
  rw [regarded] at notClosing
  exact notClosing

theorem Pending.enter {methods : Set Symbol} {state : State} (pending : Pending methods state)
    (method : Symbol) : Pending methods (state.enter method) := by
  intro other member seen
  refine Trail.holds_iff.mpr (Trail.mem_members_push.mpr ?_)
  rcases List.mem_cons.mp (State.knows_iff.mp seen) with same | earlier
  · exact .inl same
  · exact .inr (Trail.holds_iff.mp (pending other member (State.knows_iff.mpr earlier)))

/-- Once the search is done with the callees of a method that are not ignored, the
step of that method can be taken back. -/
theorem Pending.leave {methods : Set Symbol} (recurrent : Recurrent graph policy methods)
    {inner : State} {trail : Trail} {method : Symbol} (pending : Pending methods inner)
    (entered : inner.trail = trail.push method) (left : (inner.leave 1).trail = trail)
    (settled : ∀ callee ∈ graph.callees method, policy.ignores callee = false →
      Settled inner callee) :
    Pending methods (inner.leave 1) := by
  intro other member seen
  have held := Trail.holds_iff.mp (pending other member seen)
  rw [entered] at held
  rcases Trail.mem_members_push.mp held with same | earlier
  · -- The set goes on from `other` to a callee that the search is done with.
    obtain ⟨next, inside, calls⟩ := recurrent.continues other member
    have callee : next ∈ graph.callees method := CallGraph.callees_congr same ▸ calls
    obtain ⟨known, gone⟩ := settled next callee (recurrent.regarded next inside)
    rw [pending next inside known] at gone
    exact nomatch gone
  · rw [left]
    exact Trail.holds_iff.mpr earlier

/-- **A scan that closes no cycle is not done with any method of a recurrent set**,
and is done with the methods of its list that are not ignored. -/
theorem Scans.pending {methods : Set Symbol} (recurrent : Recurrent graph policy methods)
    {scanned : List Symbol} {state after : State} {found : Bool}
    (scans : Scans graph policy scanned state found after) (clear : found = false)
    (wellFormed : state.WellFormed) (start : Pending methods state) :
    Pending methods after ∧
      ∀ method ∈ scanned, policy.ignores method = false → Settled after method := by
  induction scans with
  | done => exact ⟨start, fun _ member => nomatch member⟩
  | closed _ => cases clear
  | unwound _ _ _ _ => cases clear
  | @known first later state after found notClosing seen scans ih =>
      obtain ⟨pending, settled⟩ := ih clear wellFormed start
      refine ⟨pending, fun method member regarded => ?_⟩
      rcases List.mem_cons.mp member with rfl | later
      · exact Settled.of_keeps ⟨seen, not_held_of_not_closes notClosing regarded⟩
          (scans.keeps wellFormed)
      · exact settled method later regarded
  | @passed first later state inner after found _ unseen inside scans ih rest =>
      have inward := inside.keeps (wellFormed.enter unseen)
      have left := inward.leave wellFormed unseen
      have onward := scans.keeps (left.wellFormed wellFormed)
      obtain ⟨below, done⟩ := ih rfl (wellFormed.enter unseen) (start.enter first)
      obtain ⟨pending, settled⟩ := rest clear (left.wellFormed wellFormed)
        (below.leave recurrent inward.trail left.trail done)
      refine ⟨pending, fun method member regarded => ?_⟩
      rcases List.mem_cons.mp member with rfl | later
      · have absent : state.trail.holds method = false :=
          Bool.eq_false_iff.mpr fun held => wellFormed.fresh unseen (Trail.holds_iff.mp held)
        refine Settled.of_keeps ⟨?_, left.trail ▸ absent⟩ onward
        exact State.knows_iff.mpr (inward.visited List.mem_cons_self)
      · exact settled method later regarded

/-! ## Runs without chains -/

/-- A scan that closes a cycle leaves a chain. -/
theorem Scans.chains_ne_nil {methods : List Symbol} {state after : State}
    (scans : Scans graph policy methods state true after) : after.log.chains ≠ [] := by
  generalize success : true = found at scans
  induction scans with
  | done => cases success
  | closed _ => exact List.ne_nil_of_mem (ChainLog.mem_add.mpr (.inr rfl))
  | known _ _ _ ih => exact ih success
  | unwound _ _ _ ih => exact ih rfl
  | passed _ _ _ _ _ rest => exact rest success

/-- A search that leaves no chain keeps a recurrent set pending. -/
theorem search_pending {methods : Set Symbol} (recurrent : Recurrent graph policy methods)
    {root : Symbol} {state : State} (empty : state.trail = {})
    (clean : (search graph policy root state).2.log.chains = [])
    (start : Pending methods state) : Pending methods (search graph policy root state).2 := by
  have scans := scans_search graph policy root state
  cases found : (search graph policy root state).1 with
  | true =>
      rw [found] at scans
      exact absurd clean scans.chains_ne_nil
  | false =>
      exact (scans.pending recurrent found (State.wellFormed_of_trail_empty empty) start).1

/-- The first method of a list is visited after the scan. -/
theorem Scans.visits_head {method : Symbol} {later : List Symbol} {state after : State}
    {found : Bool} (scans : Scans graph policy (method :: later) state found after)
    (wellFormed : state.WellFormed) : after.knows method = true := by
  cases scans with
  | closed closing =>
      exact State.knows_iff.mpr
        (wellFormed.visited_of_member (Trail.holds_iff.mp (held_of_closes closing)))
  | known _ seen rest => exact State.knows_of_subset (rest.keeps wellFormed).visited seen
  | unwound _ unseen inside =>
      have inward := inside.keeps (wellFormed.enter unseen)
      exact State.knows_iff.mpr (inward.visited List.mem_cons_self)
  | passed _ unseen inside rest =>
      have inward := inside.keeps (wellFormed.enter unseen)
      have onward := rest.keeps ((inward.leave wellFormed unseen).wellFormed wellFormed)
      exact State.knows_iff.mpr (onward.visited (inward.visited List.mem_cons_self))

/-- A run over an empty trail visits all its roots. -/
theorem runFrom_visits (graph : CallGraph) (policy : Policy) {roots : List Symbol} {state : State}
    (empty : state.trail = {}) {root : Symbol} (among : root ∈ roots) :
    (runFrom graph policy roots state).1.knows root = true := by
  induction roots generalizing state with
  | nil => exact nomatch among
  | cons head roots ih =>
      have after := search_trail_empty graph policy head empty
      rw [runFrom_cons graph policy head roots empty]
      cases seen : state.knows head with
      | true =>
          rcases List.mem_cons.mp among with rfl | later
          · exact State.knows_of_subset (runFrom_keeps graph policy roots empty).visited seen
          · exact ih empty later
      | false =>
          rcases List.mem_cons.mp among with rfl | later
          · exact State.knows_of_subset (runFrom_keeps graph policy roots after).visited
              ((scans_search graph policy root state).visits_head
                (State.wellFormed_of_trail_empty empty))
          · exact ih after later

end Search

namespace CallGraph

open Search

variable {graph : CallGraph} {policy : Policy}

/-- After a run the trail is empty and every caller was visited, so a recurrent set is
no longer pending. -/
theorem not_pending_run {methods : Set Symbol} (recurrent : Recurrent graph policy methods)
    (inhabited : methods.Nonempty) : ¬ Pending methods (run graph policy {}).1 := by
  intro pending
  obtain ⟨method, member⟩ := inhabited
  obtain ⟨next, _, calls⟩ := recurrent.continues method member
  obtain ⟨caller, known, same⟩ := calls.exists_caller
  have visited : (run graph policy {}).1.knows caller = true :=
    runFrom_visits graph policy rfl known
  rw [State.knows_iff, same] at visited
  have held := pending method member (State.knows_iff.mpr visited)
  rw [run, (runFrom_keeps graph policy graph.callers (rfl : ({} : State).trail = {})).trail] at held
  exact nomatch held

/-- **A recurrent set does not go unreported.** -/
theorem cycles_ne_nil_of_recurrent {methods : Set Symbol}
    (recurrent : Recurrent graph policy methods) (inhabited : methods.Nonempty) :
    graph.cycles policy ≠ [] := by
  intro clean
  -- The log of a run only grows, so it has no chain at any point of this one.
  refine not_pending_run recurrent inhabited (runFrom_induction graph policy
    (motive := fun state => state.log.chains = [] → Pending methods state)
    ?_ (rfl : ({} : State).trail = {}) (fun _ _ _ seen => nomatch seen) clean)
  intro root _ state empty _ earlier cleanAfter
  have kept := (search_keeps graph policy root (State.wellFormed_of_trail_empty empty)).log
  rw [cleanAfter] at kept
  exact search_pending recurrent empty cleanAfter (earlier (List.prefix_nil.mp kept))

/-- The methods of a cycle without ignored methods are recurrent. -/
theorem IsCycle.recurrent {first : Symbol} {rest : List Symbol}
    (cycle : graph.IsCycle first rest)
    (regarded : ∀ method ∈ first :: rest, policy.ignores method = false) :
    Recurrent graph policy {method | method ∈ first :: rest} :=
  ⟨regarded, fun _ member => cycle.exists_next member⟩

/-- When the policy ignores no caller, a graph is clean exactly if it has no cycle. -/
theorem cycles_eq_nil_iff (unambiguous : graph.Unambiguous)
    (regarded : ∀ caller ∈ graph.callers, policy.ignores caller = false) :
    graph.cycles policy = [] ↔ graph.Acyclic := by
  constructor
  · intro clean first rest cycle
    have recurrent := cycle.recurrent fun method member =>
      regarded method (cycle.mem_callers unambiguous member)
    exact cycles_ne_nil_of_recurrent recurrent ⟨first, List.mem_cons_self⟩ clean
  · intro acyclic
    refine List.eq_nil_iff_forall_not_mem.mpr fun chain member => ?_
    obtain ⟨first, rest, _, cycle, _⟩ := exists_cycle_of_mem_cycles unambiguous member
    exact acyclic first rest cycle

/-- **A cyclic graph is never declared clean.** In a graph with symbols of one table,
a cycle without ignored methods makes a run report a chain; a reported chain comes
with a cycle one of whose methods is not ignored; and if no caller is ignored, as in
a graph made with the policy itself, the run reports nothing exactly when the graph
has no cycle. No run is stopped. -/
theorem cycles_decide_acyclicity {table : SymbolTable} (reachable : table.Reachable)
    {graph : CallGraph} (fromTable : graph.Over table) (policy : Policy) :
    (run graph policy {}).2 = none ∧
      ((∃ first rest, graph.IsCycle first rest ∧
          ∀ method ∈ first :: rest, policy.ignores method = false) →
        graph.cycles policy ≠ []) ∧
      (graph.cycles policy ≠ [] →
        ∃ first rest, graph.IsCycle first rest ∧
          ∃ method ∈ first :: rest, policy.ignores method = false) ∧
      ((∀ caller ∈ graph.callers, policy.ignores caller = false) →
        (graph.cycles policy = [] ↔ graph.Acyclic)) ∧
      ∀ records, graph = ofRecords records policy →
        (graph.cycles policy = [] ↔ graph.Acyclic) := by
  have unambiguous := fromTable.unambiguous reachable
  have sound : graph.cycles policy ≠ [] → ∃ first rest, graph.IsCycle first rest ∧
      ∃ method ∈ first :: rest, policy.ignores method = false := by
    intro reported
    obtain ⟨chain, member⟩ := List.exists_mem_of_ne_nil _ reported
    obtain ⟨first, rest, _, cycle, regarded⟩ := exists_cycle_of_mem_cycles unambiguous member
    exact ⟨first, rest, cycle, first, List.mem_cons_self, regarded⟩
  have decides : (∀ caller ∈ graph.callers, policy.ignores caller = false) →
      (graph.cycles policy = [] ↔ graph.Acyclic) :=
    cycles_eq_nil_iff unambiguous
  refine ⟨runFrom_not_stopped graph policy graph.callers rfl, ?_, sound, decides, ?_⟩
  · rintro ⟨first, rest, cycle, regarded⟩
    exact cycles_ne_nil_of_recurrent (cycle.recurrent regarded) ⟨first, List.mem_cons_self⟩
  · rintro records rfl
    exact decides fun caller => not_ignored_of_mem_callers_ofRecords

/-- In the small graph, made with the policy that ignores nothing, `load` and `parse`
call each other. -/
theorem cycles_decide_acyclicity_sample :
    Sample.graph.cycles {} ≠ [] ∧ ¬ Sample.graph.Acyclic := by
  obtain ⟨_, complete, _, _, decides⟩ :=
    cycles_decide_acyclicity Sample.table_reachable Sample.graph_over {}
  have reported := complete ⟨Sample.load, [Sample.parse], by decide, by decide⟩
  exact ⟨reported, fun acyclic => reported ((decides _ rfl).mpr acyclic)⟩

end CallGraph

end CyclicCalls
