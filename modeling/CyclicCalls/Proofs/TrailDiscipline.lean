import CyclicCalls.Proofs.GuardedSearch
/-!
# Searches leave the trail as they found it

The trail keeps its steps twice, as a list and as a set of numbers, and taking a
step back removes its number from the set whether or not an earlier step has the
same number. A search that pushed a method already on the trail would therefore
lose it from the set. It never does: a method is pushed only when it was not
visited, and every step of a *well-formed* state was.

A state is well formed when its steps are distinct, the members of its trail are
exactly the numbers of the steps, and every step was visited. Scanning any list
from a well-formed state puts the trail back, only adds to what was visited, and
only appends to the log (`Scans.keeps`).

A state with an empty trail is well formed, so a detector that starts with one has
an empty trail after any sequence of searches, marks and runs, and nothing in such
a sequence fails (`detector_discipline`).
-/

set_option autoImplicit false

namespace CyclicCalls

/-! ## Pushing and taking back -/

namespace Trail

/-- Taking back a step whose number was no member before restores the trail. -/
theorem drop_push {trail : Trail} {method : Symbol} (fresh : method.index ∉ trail.members) :
    (trail.push method).drop = trail := by
  obtain ⟨steps, members⟩ := trail
  have absent : ¬ Trail.holds ⟨steps, members⟩ method = true :=
    fun held => fresh (holds_iff.mp held)
  have kept : members.filter (· != method.index) = members := by
    refine List.filter_eq_self.mpr fun number member => ?_
    exact bne_iff_ne.mpr fun same => fresh (same ▸ member)
  simp only [push, if_neg absent, drop, pop?, List.filter_cons, bne_self_eq_false,
    Bool.false_eq_true, if_false, kept]

end Trail

namespace ChainLog

theorem prefix_add (log : ChainLog) (chain : String) : log.chains <+: (log.add chain).chains := by
  unfold add
  split
  · exact List.prefix_refl _
  · exact List.prefix_append _ _

theorem mem_add {log : ChainLog} {chain other : String} :
    other ∈ (log.add chain).chains ↔ other ∈ log.chains ∨ other = chain := by
  unfold add
  by_cases seen : log.contains chain = true
  · rw [if_pos seen]
    constructor
    · exact .inl
    · rintro (earlier | rfl)
      · exact earlier
      · exact List.contains_iff_mem.mp seen
  · rw [if_neg seen]
    simp only [List.mem_append, List.mem_singleton]

end ChainLog

namespace Search

/-! ## Well-formed states -/

namespace State

theorem knows_of_subset {state later : State} (more : state.visited ⊆ later.visited)
    {method : Symbol} (seen : state.knows method = true) : later.knows method = true :=
  knows_iff.mpr (more (knows_iff.mp seen))

theorem not_knows_of_subset {state later : State} (more : state.visited ⊆ later.visited)
    {method : Symbol} (unseen : later.knows method = false) : state.knows method = false := by
  cases seen : state.knows method with
  | false => rfl
  | true =>
      rw [knows_of_subset more seen] at unseen
      exact unseen

/-- The steps are distinct, the members of the trail are their numbers, and all of
them were visited. -/
structure WellFormed (state : State) : Prop where
  distinct : (state.trail.steps.map Symbol.index).Nodup
  members : ∀ number, number ∈ state.trail.members ↔
    number ∈ state.trail.steps.map Symbol.index
  visited : ∀ step ∈ state.trail.steps, state.knows step = true

theorem wellFormed_of_trail_empty {state : State} (empty : state.trail = {}) :
    state.WellFormed := by
  constructor
  · rw [empty]
    exact List.nodup_nil
  · intro number
    rw [empty]
    exact Iff.rfl
  · intro step among
    rw [empty] at among
    cases among

namespace WellFormed

variable {state : State}

theorem backed (wellFormed : state.WellFormed) : state.trail.Backed :=
  fun number member => (wellFormed.members number).mp member

/-- Every member of the trail was visited. -/
theorem visited_of_member (wellFormed : state.WellFormed) {number : Nat}
    (member : number ∈ state.trail.members) : number ∈ state.visited := by
  obtain ⟨step, among, rfl⟩ := List.mem_map.mp ((wellFormed.members number).mp member)
  exact knows_iff.mp (wellFormed.visited step among)

/-- A method that was not visited is not on the trail. -/
theorem fresh (wellFormed : state.WellFormed) {method : Symbol}
    (unseen : state.knows method = false) : method.index ∉ state.trail.members := by
  intro member
  have seen := knows_iff.mpr (wellFormed.visited_of_member member)
  rw [unseen] at seen
  exact Bool.false_ne_true seen

theorem enter (wellFormed : state.WellFormed) {method : Symbol}
    (unseen : state.knows method = false) : (state.enter method).WellFormed where
  distinct := by
    refine List.nodup_cons.mpr ⟨?_, wellFormed.distinct⟩
    exact fun among => wellFormed.fresh unseen ((wellFormed.members _).mpr among)
  members := by
    intro number
    show number ∈ (state.trail.push method).members ↔
      number ∈ method.index :: state.trail.steps.map Symbol.index
    rw [Trail.mem_members_push, List.mem_cons, wellFormed.members]
  visited := by
    intro step among
    refine knows_iff.mpr ?_
    rcases List.mem_cons.mp among with rfl | earlier
    · exact List.mem_cons_self
    · exact List.mem_cons_of_mem _ (knows_iff.mp (wellFormed.visited step earlier))

/-- Well-formedness is about the trail, and survives further visits. -/
theorem of_trail_eq (wellFormed : state.WellFormed) {later : State}
    (same : later.trail = state.trail) (more : state.visited ⊆ later.visited) :
    later.WellFormed where
  distinct := by
    rw [same]
    exact wellFormed.distinct
  members := by
    rw [same]
    exact wellFormed.members
  visited := by
    intro step among
    rw [same] at among
    exact knows_of_subset more (wellFormed.visited step among)

end WellFormed

end State

/-! ## What scanning keeps -/

/-- The trail is as before, and what was visited and taken down before is still
there. -/
structure Keeps (before after : State) : Prop where
  trail : after.trail = before.trail
  visited : before.visited ⊆ after.visited
  log : before.log.chains <+: after.log.chains

namespace Keeps

theorem refl (state : State) : Keeps state state :=
  ⟨rfl, List.Subset.refl _, List.prefix_refl _⟩

theorem trans {first second third : State} (earlier : Keeps first second)
    (later : Keeps second third) : Keeps first third :=
  ⟨later.trail.trans earlier.trail, List.Subset.trans earlier.visited later.visited,
    earlier.log.trans later.log⟩

/-- Whatever keeps the state after a first visit keeps the state before it, once
the step is taken back. -/
theorem leave {state inner : State} {method : Symbol} (wellFormed : state.WellFormed)
    (unseen : state.knows method = false) (inside : Keeps (state.enter method) inner) :
    Keeps state (inner.leave 1) where
  trail := by
    show inner.trail.drop = state.trail
    rw [inside.trail, State.enter_trail, Trail.drop_push (wellFormed.fresh unseen)]
  visited := List.Subset.trans (List.subset_cons_self _ _) inside.visited
  log := inside.log

theorem wellFormed {before after : State} (keeps : Keeps before after)
    (wellFormed : before.WellFormed) : after.WellFormed :=
  wellFormed.of_trail_eq keeps.trail keeps.visited

end Keeps

variable {graph : CallGraph} {policy : Policy}

/-- **Scanning from a well-formed state restores the trail.** -/
theorem Scans.keeps {methods : List Symbol} {state after : State} {found : Bool}
    (scans : Scans graph policy methods state found after) (wellFormed : state.WellFormed) :
    Keeps state after := by
  induction scans with
  | @done state => exact Keeps.refl state
  | closed _ => exact ⟨rfl, List.Subset.refl _, ChainLog.prefix_add _ _⟩
  | known _ _ _ ih => exact ih wellFormed
  | unwound _ unseen _ ih => exact (ih (wellFormed.enter unseen)).leave wellFormed unseen
  | passed _ unseen _ _ inside rest =>
      have left := (inside (wellFormed.enter unseen)).leave wellFormed unseen
      exact left.trans (rest (left.wellFormed wellFormed))

theorem search_keeps (graph : CallGraph) (policy : Policy) (method : Symbol) {state : State}
    (wellFormed : state.WellFormed) : Keeps state (search graph policy method state).2 :=
  (scans_search graph policy method state).keeps wellFormed

theorem search_trail_empty (graph : CallGraph) (policy : Policy) (method : Symbol)
    {state : State} (empty : state.trail = {}) :
    (search graph policy method state).2.trail = {} :=
  ((search_keeps graph policy method (State.wellFormed_of_trail_empty empty)).trail).trans empty

/-! ## Runs -/

/-- One turn of a run over an empty trail: a visited root is passed over, any other
root is searched from, and the run goes on. -/
theorem runFrom_cons (graph : CallGraph) (policy : Policy) (root : Symbol) (roots : List Symbol)
    {state : State} (empty : state.trail = {}) :
    runFrom graph policy (root :: roots) state =
      if state.knows root then runFrom graph policy roots state
      else runFrom graph policy roots (search graph policy root state).2 := by
  rw [runFrom]
  cases seen : state.knows root with
  | true => rfl
  | false =>
      rw [if_neg Bool.false_ne_true, if_neg Bool.false_ne_true]
      show (if (search graph policy root state).2.trail.steps.isEmpty then _ else _) = _
      rw [search_trail_empty graph policy root empty]
      rfl

/-- What holds before a run over an empty trail, and is kept by a search from an
unvisited root, holds after the run. -/
theorem runFrom_induction (graph : CallGraph) (policy : Policy) {motive : State → Prop}
    {roots : List Symbol}
    (step : ∀ root ∈ roots, ∀ state : State, state.trail = {} → state.knows root = false →
      motive state → motive (search graph policy root state).2)
    {state : State} (empty : state.trail = {}) (start : motive state) :
    motive (runFrom graph policy roots state).1 := by
  induction roots generalizing state with
  | nil => exact start
  | cons root roots ih =>
      have later := fun other member => step other (List.mem_cons_of_mem root member)
      rw [runFrom_cons graph policy root roots empty]
      cases seen : state.knows root with
      | true => exact ih later empty start
      | false =>
          exact ih later (search_trail_empty graph policy root empty)
            (step root List.mem_cons_self state empty seen start)

/-- A run over an empty trail is never stopped. -/
theorem runFrom_not_stopped (graph : CallGraph) (policy : Policy) (roots : List Symbol)
    {state : State} (empty : state.trail = {}) :
    (runFrom graph policy roots state).2 = none := by
  induction roots generalizing state with
  | nil => rfl
  | cons root roots ih =>
      rw [runFrom_cons graph policy root roots empty]
      cases state.knows root with
      | true => exact ih empty
      | false => exact ih (search_trail_empty graph policy root empty)

theorem runFrom_keeps (graph : CallGraph) (policy : Policy) (roots : List Symbol) {state : State}
    (empty : state.trail = {}) : Keeps state (runFrom graph policy roots state).1 := by
  refine runFrom_induction graph policy ?_ empty (Keeps.refl state)
  intro root _ later stillEmpty _ kept
  exact kept.trans (search_keeps graph policy root (State.wellFormed_of_trail_empty stillEmpty))

theorem run_trail_empty (graph : CallGraph) (policy : Policy) {state : State}
    (empty : state.trail = {}) : (run graph policy state).1.trail = {} :=
  (runFrom_keeps graph policy graph.callers empty).trail.trans empty

/-- Search from each of the given roots with guarded steps. -/
def guardedRunFrom (graph : CallGraph) (policy : Policy) :
    List Symbol → State → Except Fault State
  | [], state => .ok state
  | root :: roots, state =>
    if state.knows root then guardedRunFrom graph policy roots state
    else do
      let (_, next) ← guardedSearch graph policy root state
      if next.trail.steps.isEmpty then guardedRunFrom graph policy roots next
      else .error (.stopped root)

theorem guardedRunFrom_eq (graph : CallGraph) (policy : Policy) (roots : List Symbol)
    {state : State} (empty : state.trail = {}) :
    guardedRunFrom graph policy roots state = .ok (runFrom graph policy roots state).1 := by
  induction roots generalizing state with
  | nil => rfl
  | cons root roots ih =>
      rw [guardedRunFrom, runFrom_cons graph policy root roots empty]
      cases state.knows root with
      | true => exact ih empty
      | false =>
          have after := search_trail_empty graph policy root empty
          have outcome := guardedSearch_eq graph policy root
            (State.wellFormed_of_trail_empty empty).backed
          rw [if_neg Bool.false_ne_true, if_neg Bool.false_ne_true, outcome]
          show (if (search graph policy root state).2.trail.steps.isEmpty then
            guardedRunFrom graph policy roots (search graph policy root state).2
            else .error (.stopped root)) = _
          rw [if_pos (by rw [after]; rfl)]
          exact ih after

/-- The chains of a graph, read off a guarded run. -/
theorem cycles_eq_of_guarded {graph : CallGraph} {policy : Policy} {final : State}
    (outcome : guardedRunFrom graph policy graph.callers {} = .ok final) :
    graph.cycles policy = final.log.chains := by
  rw [guardedRunFrom_eq graph policy graph.callers rfl] at outcome
  cases outcome
  rfl

/-! ## Detectors -/

/-- What can be done with a detector: search from a method, mark one as visited, or
search from every caller. -/
inductive Operation where
  | search (method : Symbol)
  | mark (method : Symbol)
  | run
deriving DecidableEq, Repr

namespace Operation

/-- The state after an operation. -/
def apply (graph : CallGraph) (policy : Policy) (state : State) : Operation → State
  | search method => (Search.search graph policy method state).2
  | mark method => state.mark method
  | run => (Search.run graph policy state).1

/-- The state after an operation with guarded steps. -/
def guardedApply (graph : CallGraph) (policy : Policy) (state : State) :
    Operation → Except Fault State
  | search method => (guardedSearch graph policy method state).map Prod.snd
  | mark method => .ok (state.mark method)
  | run => guardedRunFrom graph policy graph.callers state

theorem apply_trail_empty (graph : CallGraph) (policy : Policy) (operation : Operation)
    {state : State} (empty : state.trail = {}) :
    (operation.apply graph policy state).trail = {} := by
  cases operation with
  | search method => exact search_trail_empty graph policy method empty
  | mark method =>
      simp only [apply, State.mark]
      split
      · exact empty
      · exact empty
  | run => exact run_trail_empty graph policy empty

theorem guardedApply_eq (graph : CallGraph) (policy : Policy) (operation : Operation)
    {state : State} (empty : state.trail = {}) :
    operation.guardedApply graph policy state = .ok (operation.apply graph policy state) := by
  cases operation with
  | search method =>
      have outcome := guardedSearch_eq graph policy method
        (State.wellFormed_of_trail_empty empty).backed
      rw [guardedApply, outcome]
      rfl
  | mark method => rfl
  | run => exact guardedRunFrom_eq graph policy graph.callers empty

/-- Operations on a detector with an empty trail leave it empty, and none fails. -/
theorem foldlM_guardedApply (graph : CallGraph) (policy : Policy) (operations : List Operation)
    {state : State} (empty : state.trail = {}) :
    operations.foldlM (guardedApply graph policy) state =
        .ok (operations.foldl (apply graph policy) state) ∧
      (operations.foldl (apply graph policy) state).trail = {} := by
  induction operations generalizing state with
  | nil => exact ⟨rfl, empty⟩
  | cons operation operations ih =>
      rw [List.foldlM_cons, guardedApply_eq graph policy operation empty]
      exact ih (apply_trail_empty graph policy operation empty)

end Operation

/-- **The trail is kept in order.** From every well-formed state, a search meets no
fault, puts the trail back as it was, only adds to what was visited, and only
appends to the log. After every sequence of operations on a fresh detector no fault
has occurred, the trail is empty, and a run would not be stopped. -/
theorem detector_discipline (graph : CallGraph) (policy : Policy) :
    (∀ (method : Symbol) (state : State), state.WellFormed →
      guardedSearch graph policy method state = .ok (search graph policy method state) ∧
        (search graph policy method state).2.trail = state.trail ∧
        state.visited ⊆ (search graph policy method state).2.visited ∧
        state.log.chains <+: (search graph policy method state).2.log.chains) ∧
    ∀ operations : List Operation,
      operations.foldlM (Operation.guardedApply graph policy) {} =
          .ok (operations.foldl (Operation.apply graph policy) {}) ∧
        (operations.foldl (Operation.apply graph policy) {}).trail = {} ∧
        (run graph policy (operations.foldl (Operation.apply graph policy) {})).2 = none := by
  refine ⟨fun method state wellFormed => ?_, fun operations => ?_⟩
  · obtain ⟨trail, visited, log⟩ := search_keeps graph policy method wellFormed
    exact ⟨guardedSearch_eq graph policy method wellFormed.backed, trail, visited, log⟩
  · obtain ⟨outcome, empty⟩ := Operation.foldlM_guardedApply graph policy operations
      (rfl : ({} : State).trail = {})
    exact ⟨outcome, empty, runFrom_not_stopped graph policy graph.callers empty⟩

/-- The state in which a search from `main` arrives at the callees of `load`. -/
def midway : State :=
  (({} : State).enter Sample.main).enter Sample.load

/-- From there a search from `parse` comes back to `load`, closes the cycle, and leaves
`main` and `load` on the trail. -/
theorem detector_discipline_midway :
    midway.WellFormed ∧
      (search Sample.graph {} Sample.parse midway).2.trail = midway.trail := by
  have wellFormed : midway.WellFormed :=
    ⟨by decide, fun _ => Iff.rfl, by decide⟩
  obtain ⟨_, trail, _⟩ := (detector_discipline Sample.graph {}).1 Sample.parse midway wellFormed
  exact ⟨wellFormed, trail⟩

end Search

end CyclicCalls
