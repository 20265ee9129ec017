import CyclicCalls.Cycle.Search
/-!
# The search as a recursion

`Search.scan` keeps the callees still to be scanned in frames and never follows
the depth of the graph. Written the plain way, a search is a recursion: arriving
at a method closes a cycle, or finds the method visited, or visits it, searches
from its callees in order until one of these searches closes a cycle, and takes
the step back. `visitBy` is one unfolding of that recursion, with the searches from
the callees left to a given function. A function that solves the recursion is one
that `visitBy` gives back.

Between the recursion and the frames stands a relation. `Scans` says what scanning
a list of methods does to a state; it has one rule for each way in which the first
method of the list can be dealt with. Every list can be scanned from every state
(`exists_scans`): twice the calls of the callers not yet visited, plus twice the
length of the list, goes down from a rule to its premises. A derivation fixes what
the frames do (`Scans.scan_frame`) and what any solution of the recursion does
(`Scans.eachUntil_eq`), so the search is the only solution
(`visitBy_eq_self_iff`).

Statements about searches are proved by induction on the derivation that a search
has (`scans_search`).
-/

set_option autoImplicit false

namespace CyclicCalls

namespace Search

/-! ## The recursion -/

/-- Search from the given methods in order, until one of the searches closes a
cycle. -/
def eachUntil (recurse : Symbol → State → Bool × State) : List Symbol → State → Bool × State
  | [], state => (false, state)
  | method :: later, state =>
    match recurse method state with
    | (true, after) => (true, after)
    | (false, after) => eachUntil recurse later after

/-- Search from a method, where the searches from its callees are made by a given
function. -/
def visitBy (graph : CallGraph) (policy : Policy) (recurse : Symbol → State → Bool × State)
    (method : Symbol) (state : State) : Bool × State :=
  if closes policy state method then (true, state.close method)
  else if state.knows method then (false, state)
  else
    match eachUntil recurse (graph.callees method) (state.enter method) with
    | (found, after) => (found, after.leave 1)

/-! ## Small facts about states -/

namespace State

@[simp] theorem leave_visited (state : State) (count : Nat) :
    (state.leave count).visited = state.visited := rfl

@[simp] theorem leave_log (state : State) (count : Nat) :
    (state.leave count).log = state.log := rfl

@[simp] theorem enter_visited (state : State) (method : Symbol) :
    (state.enter method).visited = method.index :: state.visited := rfl

@[simp] theorem enter_trail (state : State) (method : Symbol) :
    (state.enter method).trail = state.trail.push method := rfl

@[simp] theorem enter_log (state : State) (method : Symbol) :
    (state.enter method).log = state.log := rfl

/-- Taking steps back one after the other, or all at once. -/
theorem leave_leave (state : State) (count : Nat) :
    (state.leave 1).leave count = state.leave (count + 1) := rfl

theorem knows_iff {state : State} {method : Symbol} :
    state.knows method = true ↔ method.index ∈ state.visited :=
  List.contains_iff_mem

end State

/-! ## Scanning a list of methods -/

/-- What scanning a list of methods does: whether a cycle was closed, and the
state afterwards. -/
inductive Scans (graph : CallGraph) (policy : Policy) :
    List Symbol → State → Bool → State → Prop where
  /-- No method is left. -/
  | done {state : State} : Scans graph policy [] state false state
  /-- The first method closes a cycle, and the rest of the list is not looked at. -/
  | closed {method : Symbol} {later : List Symbol} {state : State} :
      closes policy state method = true →
        Scans graph policy (method :: later) state true (state.close method)
  /-- The first method was visited before. -/
  | known {method : Symbol} {later : List Symbol} {state after : State} {found : Bool} :
      closes policy state method = false → state.knows method = true →
        Scans graph policy later state found after →
          Scans graph policy (method :: later) state found after
  /-- A cycle is closed below the first method, and its step is taken back. -/
  | unwound {method : Symbol} {later : List Symbol} {state inner : State} :
      closes policy state method = false → state.knows method = false →
        Scans graph policy (graph.callees method) (state.enter method) true inner →
          Scans graph policy (method :: later) state true (inner.leave 1)
  /-- No cycle is closed below the first method. -/
  | passed {method : Symbol} {later : List Symbol} {state inner after : State} {found : Bool} :
      closes policy state method = false → state.knows method = false →
        Scans graph policy (graph.callees method) (state.enter method) false inner →
          Scans graph policy later (inner.leave 1) found after →
            Scans graph policy (method :: later) state found after

variable {graph : CallGraph} {policy : Policy}

/-- Every list can be scanned from every state, and scanning it opens no calls. -/
theorem exists_scans (graph : CallGraph) (policy : Policy) :
    ∀ (methods : List Symbol) (state : State), ∃ found after,
      Scans graph policy methods state found after ∧
        graph.openCalls after.visited ≤ graph.openCalls state.visited
  | [], state => ⟨false, state, .done, Nat.le_refl _⟩
  | method :: later, state => by
      cases closing : closes policy state method with
      | true => exact ⟨true, state.close method, .closed closing, Nat.le_refl _⟩
      | false =>
          cases seen : state.knows method with
          | true =>
              obtain ⟨found, after, scans, fewer⟩ := exists_scans graph policy later state
              exact ⟨found, after, .known closing seen scans, fewer⟩
          | false =>
              have used := graph.openCalls_visit state.visited method seen
              obtain ⟨found, inner, scans, fewer⟩ :=
                exists_scans graph policy (graph.callees method) (state.enter method)
              have less : graph.openCalls inner.visited ≤ graph.openCalls state.visited := by
                rw [State.enter_visited] at fewer
                omega
              cases found with
              | true => exact ⟨true, inner.leave 1, .unwound closing seen scans, less⟩
              | false =>
                  obtain ⟨found, after, rest, fewest⟩ :=
                    exists_scans graph policy later (inner.leave 1)
                  exact ⟨found, after, .passed closing seen scans rest, Nat.le_trans fewest less⟩
termination_by methods state => graph.openCalls state.visited + 2 * methods.length
decreasing_by
  all_goals simp only [State.enter_visited, State.leave_visited, List.length_cons]
  all_goals omega

/-- A derivation fixes what the frames do with the list as the innermost frame:
they unwind altogether after a cycle, and go on with the outer frames otherwise. -/
theorem Scans.scan_frame {methods : List Symbol} {state after : State} {found : Bool}
    (scans : Scans graph policy methods state found after) (outer : List (List Symbol)) :
    scan graph policy (methods :: outer) state =
      if found then (true, after.leave (outer.length + 1))
      else scan graph policy outer (after.leave 1) := by
  -- The outer frames grow by the rest of a list whenever a method is visited.
  induction scans generalizing outer with
  | done => rw [scan]; rfl
  | closed closing => rw [scan, if_pos closing]; rfl
  | known closing seen _ ih =>
      rw [scan, if_neg (by simp [closing]), if_pos seen]
      exact ih outer
  | @unwound method later state inner closing seen _ ih =>
      rw [scan, if_neg (by simp [closing]), if_neg (by simp [seen]), ih (later :: outer)]
      simp only [if_true, List.length_cons, State.leave_leave]
  | @passed method later state inner after found closing seen _ _ inside rest =>
      rw [scan, if_neg (by simp [closing]), if_neg (by simp [seen]), inside (later :: outer)]
      exact rest outer

/-- A derivation for a single method fixes the outcome of the search from it. -/
theorem Scans.search_eq {method : Symbol} {state after : State} {found : Bool}
    (scans : Scans graph policy [method] state found after) :
    search graph policy method state = (found, after) := by
  unfold search
  cases scans with
  | closed closing => rw [if_pos closing]
  | known closing seen rest =>
      cases rest
      rw [if_neg (by simp [closing]), if_pos seen]
  | unwound closing seen inside =>
      rw [if_neg (by simp [closing]), if_neg (by simp [seen]), inside.scan_frame []]
      rfl
  | passed closing seen inside rest =>
      cases rest
      rw [if_neg (by simp [closing]), if_neg (by simp [seen]), inside.scan_frame [],
        if_neg Bool.false_ne_true, scan]

/-- Every search has a derivation. -/
theorem scans_search (graph : CallGraph) (policy : Policy) (method : Symbol) (state : State) :
    Scans graph policy [method] state (search graph policy method state).1
      (search graph policy method state).2 := by
  obtain ⟨found, after, scans, _⟩ := exists_scans graph policy [method] state
  rw [scans.search_eq]
  exact scans

/-! ## The search solves the recursion, alone -/

theorem eachUntil_singleton (recurse : Symbol → State → Bool × State) (method : Symbol)
    (state : State) : eachUntil recurse [method] state = recurse method state := by
  rw [eachUntil]
  rcases recurse method state with ⟨_ | _, after⟩
  · rfl
  · rfl

/-- A derivation fixes what a solution of the recursion does with the list. -/
theorem Scans.eachUntil_eq {recurse : Symbol → State → Bool × State}
    (solves : visitBy graph policy recurse = recurse) {methods : List Symbol}
    {state after : State} {found : Bool}
    (scans : Scans graph policy methods state found after) :
    eachUntil recurse methods state = (found, after) := by
  induction scans with
  | done => rfl
  | closed closing => rw [eachUntil, ← solves, visitBy, if_pos closing]
  | known closing seen _ ih =>
      rw [eachUntil, ← solves, visitBy, if_neg (by simp [closing]), if_pos seen, solves]
      exact ih
  | unwound closing seen _ ih =>
      rw [eachUntil, ← solves, visitBy, if_neg (by simp [closing]), if_neg (by simp [seen]),
        solves, ih]
  | passed closing seen _ _ inside rest =>
      rw [eachUntil, ← solves, visitBy, if_neg (by simp [closing]), if_neg (by simp [seen]),
        solves, inside]
      exact rest

/-- A derivation fixes what repeated searches do with the list. -/
theorem Scans.eachUntil_search {methods : List Symbol} {state after : State} {found : Bool}
    (scans : Scans graph policy methods state found after) :
    eachUntil (search graph policy) methods state = (found, after) := by
  induction scans with
  | done => rfl
  | closed closing => rw [eachUntil, (Scans.closed closing).search_eq]
  | known closing seen _ ih =>
      rw [eachUntil, (Scans.known closing seen .done).search_eq]
      exact ih
  | unwound closing seen inside _ =>
      rw [eachUntil, (Scans.unwound closing seen inside).search_eq]
  | passed closing seen inside _ _ rest =>
      rw [eachUntil, (Scans.passed closing seen inside .done).search_eq]
      exact rest

/-- The search solves the recursion. -/
theorem visitBy_search (graph : CallGraph) (policy : Policy) :
    visitBy graph policy (search graph policy) = search graph policy := by
  funext method state
  unfold visitBy
  cases closing : closes policy state method with
  | true => exact (Scans.closed closing).search_eq.symm
  | false =>
      cases seen : state.knows method with
      | true => exact (Scans.known closing seen .done).search_eq.symm
      | false =>
          obtain ⟨found, inner, inside, _⟩ :=
            exists_scans graph policy (graph.callees method) (state.enter method)
          rw [if_neg Bool.false_ne_true, if_neg Bool.false_ne_true, inside.eachUntil_search]
          cases found with
          | true => exact (Scans.unwound closing seen inside).search_eq.symm
          | false => exact (Scans.passed closing seen inside .done).search_eq.symm

/-- The search is the only solution of the recursion. -/
theorem visitBy_eq_self_iff {recurse : Symbol → State → Bool × State} :
    visitBy graph policy recurse = recurse ↔ recurse = search graph policy := by
  constructor
  · intro solves
    funext method state
    have scans := scans_search graph policy method state
    rw [← eachUntil_singleton recurse, scans.eachUntil_eq solves]
  · rintro rfl
    exact visitBy_search graph policy

end Search

end CyclicCalls
