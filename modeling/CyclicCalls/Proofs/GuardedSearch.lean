import CyclicCalls.Proofs.CallCycles
import CyclicCalls.Proofs.RecursiveSearch
/-!
# The search with guarded steps

Two steps of a search rely on the trail. Taking a step back needs a step, and
closing a cycle needs the closing method among the steps. `Search.search` is
written with total operations, which do something also where there is nothing to
do. Here the same loop is written with operations that fail instead, and with a
bound on the number of its turns: `guardedSearch` answers with a fault as soon as
one of the two steps is not possible, or when the turns are used up.

On a trail whose members all belong to steps (`Trail.Backed`) no fault occurs, and
the guarded search has the outcome of the search (`guardedSearch_eq`). Pushing and
popping keep a trail backed, so this covers every trail that they can make, also
one with repeated steps or with steps that were never visited.

The turns are bounded by twice the calls of the callers not yet visited. Together
with the recursion of `visitBy` this says what a search does and that it ends
(`search_agrees_with_recursion`).
-/

set_option autoImplicit false

namespace CyclicCalls

/-! ## Trails whose members belong to steps -/

namespace Trail

theorem holds_iff {trail : Trail} {method : Symbol} :
    trail.holds method = true ↔ method.index ∈ trail.members :=
  List.contains_iff_mem

/-- Every number that counts as being on the trail belongs to a step. -/
def Backed (trail : Trail) : Prop :=
  ∀ number ∈ trail.members, number ∈ trail.steps.map Symbol.index

theorem backed_empty : ({} : Trail).Backed := by
  intro number member
  cases member

theorem mem_members_push {trail : Trail} {method : Symbol} {number : Nat} :
    number ∈ (trail.push method).members ↔ number = method.index ∨ number ∈ trail.members := by
  unfold push
  by_cases held : trail.holds method = true
  · rw [if_pos held]
    constructor
    · exact .inr
    · rintro (rfl | member)
      · exact holds_iff.mp held
      · exact member
  · rw [if_neg held]
    exact List.mem_cons

theorem Backed.push {trail : Trail} (backed : trail.Backed) (method : Symbol) :
    (trail.push method).Backed := by
  intro number member
  rcases mem_members_push.mp member with rfl | earlier
  · exact List.mem_cons_self
  · exact List.mem_cons_of_mem _ (backed number earlier)

/-- A number that stays a member when a step is taken back belongs to one of the
steps that stay. -/
theorem Backed.drop {trail : Trail} (backed : trail.Backed) : trail.drop.Backed := by
  obtain ⟨steps, members⟩ := trail
  cases steps with
  | nil => exact backed
  | cons latest earlier =>
      intro number member
      obtain ⟨kept, other⟩ := List.mem_filter.mp member
      rcases List.mem_cons.mp (backed number kept) with same | among
      · simp [same] at other
      · exact among

theorem length_drop (trail : Trail) : trail.drop.steps.length = trail.steps.length - 1 := by
  obtain ⟨steps, members⟩ := trail
  cases steps <;> rfl

/-- Take back the given number of steps, if there are as many. -/
def popMany? (trail : Trail) : Nat → Option Trail
  | 0 => some trail
  | count + 1 =>
    match trail.pop? with
    | none => none
    | some (_, rest) => rest.popMany? count

theorem popMany?_eq {trail : Trail} {count : Nat} (enough : count ≤ trail.steps.length) :
    trail.popMany? count = some (trail.dropMany count) := by
  induction count generalizing trail with
  | zero => rfl
  | succ count ih =>
      obtain ⟨steps, members⟩ := trail
      cases steps with
      | nil => exact absurd enough (by simp)
      | cons latest earlier => exact ih (Nat.le_of_succ_le_succ enough)

/-- On a backed trail the cycle through a member can be read off the steps. -/
theorem Backed.cycleThrough?_eq {trail : Trail} (backed : trail.Backed) {method : Symbol}
    (held : trail.holds method = true) :
    trail.cycleThrough? method = some (trail.closedBy method) := by
  obtain ⟨step, among, same⟩ := List.mem_map.mp (backed _ (holds_iff.mp held))
  have found : trail.steps.any (fun step => step.same method) = true :=
    List.any_eq_true.mpr ⟨step, among, beq_iff_eq.mpr same⟩
  exact if_pos found

end Trail

namespace Search

/-! ## The guarded loop -/

/-- Why a guarded search fails. -/
inductive Fault where
  /-- A step is taken back from an empty trail. -/
  | emptyTrail
  /-- A cycle is closed by a method that is not among the steps. -/
  | offTrail (method : Symbol)
  /-- The turns are used up. -/
  | unfinished
  /-- The trail is not empty after the search from a root. -/
  | stopped (root : Symbol)
deriving DecidableEq, Repr

namespace State

/-- Take the latest steps back, if there are as many. -/
def guardedLeave (state : State) (count : Nat) : Except Fault State :=
  match state.trail.popMany? count with
  | none => .error .emptyTrail
  | some trail => .ok { state with trail := trail }

/-- Take down the cycle that arriving at a method closes, if the method is among
the steps. -/
def guardedClose (state : State) (method : Symbol) : Except Fault State :=
  match state.trail.cycleThrough? method with
  | none => .error (.offTrail method)
  | some methods => .ok { state with log := state.log.add (chainOf methods) }

theorem guardedLeave_eq {state : State} {count : Nat}
    (enough : count ≤ state.trail.steps.length) :
    state.guardedLeave count = .ok (state.leave count) := by
  unfold guardedLeave
  rw [Trail.popMany?_eq enough]
  rfl

theorem guardedClose_eq {state : State} (backed : state.trail.Backed) {method : Symbol}
    (held : state.trail.holds method = true) :
    state.guardedClose method = .ok (state.close method) := by
  unfold guardedClose
  rw [backed.cycleThrough?_eq held]
  rfl

end State

/-- Scan the frames for at most the given number of turns. -/
def guardedScan (graph : CallGraph) (policy : Policy) :
    Nat → List (List Symbol) → State → Except Fault (Bool × State)
  | 0, _, _ => .error .unfinished
  | _ + 1, [], state => .ok (false, state)
  | turns + 1, [] :: outer, state => do
    let left ← state.guardedLeave 1
    guardedScan graph policy turns outer left
  | turns + 1, (method :: callees) :: outer, state =>
    if closes policy state method then do
      let closed ← state.guardedClose method
      let left ← closed.guardedLeave (outer.length + 1)
      .ok (true, left)
    else if state.knows method then
      guardedScan graph policy turns (callees :: outer) state
    else
      guardedScan graph policy turns (graph.callees method :: callees :: outer)
        (state.enter method)

/-- Search from one method with guarded steps. The loop may make two turns more
than there are open calls, each counted twice. -/
def guardedSearch (graph : CallGraph) (policy : Policy) (method : Symbol) (state : State) :
    Except Fault (Bool × State) :=
  if closes policy state method then do
    let closed ← state.guardedClose method
    .ok (true, closed)
  else if state.knows method then .ok (false, state)
  else guardedScan graph policy (graph.openCalls state.visited + 2) [graph.callees method]
    (state.enter method)

/-! ## No fault occurs -/

theorem held_of_closes {policy : Policy} {state : State} {method : Symbol}
    (closing : closes policy state method = true) : state.trail.holds method = true :=
  (Bool.and_eq_true_iff.mp closing).2

/-- With one step for each frame and enough turns, the guarded loop does what the
loop does. -/
theorem guardedScan_eq (graph : CallGraph) (policy : Policy) {turns : Nat}
    {frames : List (List Symbol)} {state : State} (backed : state.trail.Backed)
    (deep : frames.length ≤ state.trail.steps.length)
    (enough : graph.openCalls state.visited + weight frames < turns) :
    guardedScan graph policy turns frames state = .ok (scan graph policy frames state) := by
  -- The turns bound the measure that ends `scan`, so every branch leaves enough of them.
  induction turns generalizing frames state with
  | zero => exact absurd enough (Nat.not_lt_zero _)
  | succ turns ih =>
      match frames with
      | [] => rw [guardedScan, scan]
      | [] :: outer =>
          rw [List.length_cons] at deep
          simp only [weight, List.foldr_cons, List.length_nil] at enough
          have shallower : outer.length ≤ (state.leave 1).trail.steps.length := by
            show outer.length ≤ state.trail.drop.steps.length
            rw [Trail.length_drop]
            omega
          have fewer : graph.openCalls (state.leave 1).visited + weight outer < turns := by
            rw [State.leave_visited, weight]
            omega
          rw [guardedScan, scan, State.guardedLeave_eq (by omega)]
          exact ih backed.drop shallower fewer
      | (method :: callees) :: outer =>
          rw [guardedScan, scan]
          simp only [weight, List.foldr_cons, List.length_cons] at enough
          cases closing : closes policy state method with
          | true =>
              have left : (state.close method).guardedLeave (outer.length + 1) =
                  .ok ((state.close method).leave (outer.length + 1)) :=
                State.guardedLeave_eq deep
              rw [if_pos rfl, if_pos rfl, State.guardedClose_eq backed (held_of_closes closing)]
              show (state.close method).guardedLeave (outer.length + 1) >>=
                (fun left => Except.ok (true, left)) = _
              rw [left]
              rfl
          | false =>
              rw [if_neg Bool.false_ne_true, if_neg Bool.false_ne_true]
              cases seen : state.knows method with
              | true =>
                  rw [if_pos rfl, if_pos rfl]
                  refine ih backed deep ?_
                  simp only [weight, List.foldr_cons]
                  omega
              | false =>
                  have used := graph.openCalls_visit state.visited method seen
                  rw [if_neg Bool.false_ne_true, if_neg Bool.false_ne_true]
                  refine ih (backed.push method) (Nat.succ_le_succ deep) ?_
                  simp only [weight, State.enter_visited, List.foldr_cons]
                  omega

/-- On a backed trail a search meets no fault. -/
theorem guardedSearch_eq (graph : CallGraph) (policy : Policy) (method : Symbol) {state : State}
    (backed : state.trail.Backed) :
    guardedSearch graph policy method state = .ok (search graph policy method state) := by
  unfold guardedSearch search
  cases closing : closes policy state method with
  | true =>
      rw [if_pos rfl, if_pos rfl, State.guardedClose_eq backed (held_of_closes closing)]
      rfl
  | false =>
      rw [if_neg Bool.false_ne_true, if_neg Bool.false_ne_true]
      cases seen : state.knows method with
      | true => rfl
      | false =>
          have used := graph.openCalls_visit state.visited method seen
          rw [if_neg Bool.false_ne_true, if_neg Bool.false_ne_true]
          refine guardedScan_eq graph policy (backed.push method) ?_ ?_
          · exact Nat.succ_le_succ (Nat.zero_le _)
          · simp only [weight, State.enter_visited, List.foldr_cons, List.foldr_nil]
            omega

/-- **The search agrees with the recursion.** The search is the one function that
solves the recursion, on every method and every state. If the members of the trail
belong to steps, the loop of the search ends within its turns, and neither taking a
step back nor closing a cycle fails in it. -/
theorem search_agrees_with_recursion (graph : CallGraph) (policy : Policy) :
    (∀ recurse : Symbol → State → Bool × State,
      visitBy graph policy recurse = recurse ↔ recurse = search graph policy) ∧
    ∀ (method : Symbol) (state : State), state.trail.Backed →
      guardedSearch graph policy method state = .ok (search graph policy method state) :=
  ⟨fun _ => visitBy_eq_self_iff, fun method _ => guardedSearch_eq graph policy method⟩

/-- A trail on which `load` stands twice, while nothing was visited. -/
def repeated : State :=
  { trail := ((({} : Trail).push Sample.load).push Sample.main).push Sample.load }

/-- A search from `parse` meets no fault there, and is what the recursion says. -/
theorem search_agrees_with_recursion_repeated :
    repeated.trail.Backed ∧
      guardedSearch Sample.graph {} Sample.parse repeated =
        .ok (visitBy Sample.graph {} (search Sample.graph {}) Sample.parse repeated) := by
  have backed : repeated.trail.Backed := ((Trail.backed_empty.push _).push _).push _
  obtain ⟨solves, guarded⟩ := search_agrees_with_recursion Sample.graph {}
  rw [(solves _).mpr rfl]
  exact ⟨backed, guarded Sample.parse repeated backed⟩

end Search

end CyclicCalls
