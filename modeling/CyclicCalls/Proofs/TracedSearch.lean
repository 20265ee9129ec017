import CyclicCalls.Proofs.RecursiveSearch
/-!
# The search with its cycles kept

The log of a search keeps chains, which are texts, and each text once. It does not
tell how often a cycle was closed, nor which methods were on it. Here the same loop
is run on a state that keeps, beside the log, every cycle it closes as a list of
methods, in the order of closing and with repetitions.

Forgetting that list gives the search back (`tracedSearch_erase`). A search that closes
no cycle adds nothing to it (`Scans.tracedSearch_clear`).
-/

set_option autoImplicit false

namespace CyclicCalls

namespace Search

/-! ## The traced loop -/

/-- A state, and the cycles closed so far. -/
structure Traced where
  state : State := {}
  closed : List (List Symbol) := []
deriving DecidableEq, Repr

/-- Take down the cycle that arriving at a method closes, and keep its methods. -/
def Traced.close (traced : Traced) (method : Symbol) : Traced where
  state := traced.state.close method
  closed := traced.closed ++ [traced.state.trail.closedBy method]

/-- Scan the frames as `scan` does, and keep the cycles that are closed. -/
def tracedScan (graph : CallGraph) (policy : Policy) (frames : List (List Symbol))
    (traced : Traced) : Bool × Traced :=
  match frames with
  | [] => (false, traced)
  | [] :: outer => tracedScan graph policy outer { traced with state := traced.state.leave 1 }
  | (method :: callees) :: outer =>
    if closes policy traced.state method then
      let after := traced.close method
      (true, { after with state := after.state.leave (outer.length + 1) })
    else if traced.state.knows method then
      tracedScan graph policy (callees :: outer) traced
    else
      tracedScan graph policy (graph.callees method :: callees :: outer)
        { traced with state := traced.state.enter method }
termination_by graph.openCalls traced.state.visited + weight frames
decreasing_by
  · simp [weight, State.leave]
  · simp [weight]
  · rename_i fresh
    have used := graph.openCalls_visit traced.state.visited method
      (by simpa [State.knows] using fresh)
    simp only [weight, State.enter, List.foldr_cons, List.length_cons] at used ⊢
    omega

/-- Search from one method as `search` does, and keep the cycles that are closed. -/
def tracedSearch (graph : CallGraph) (policy : Policy) (method : Symbol) (traced : Traced) :
    Bool × Traced :=
  if closes policy traced.state method then (true, traced.close method)
  else if traced.state.knows method then (false, traced)
  else tracedScan graph policy [graph.callees method]
    { traced with state := traced.state.enter method }

/-! ## Forgetting the cycles -/

theorem tracedScan_erase (graph : CallGraph) (policy : Policy) (frames : List (List Symbol))
    (traced : Traced) :
    Prod.map id Traced.state (tracedScan graph policy frames traced) =
      scan graph policy frames traced.state := by
  fun_induction tracedScan graph policy frames traced with
  | case1 traced => rw [scan]; rfl
  | case2 traced outer ih => rw [scan]; exact ih
  | case3 traced method callees outer closing after => rw [scan, if_pos closing]; rfl
  | case4 traced method callees outer closing seen ih =>
      rw [scan, if_neg closing, if_pos seen]
      exact ih
  | case5 traced method callees outer closing unseen ih =>
      rw [scan, if_neg closing, if_neg unseen]
      exact ih

/-- **Forgetting the cycles of a traced search gives the search.** -/
theorem tracedSearch_erase (graph : CallGraph) (policy : Policy) (method : Symbol)
    (traced : Traced) :
    Prod.map id Traced.state (tracedSearch graph policy method traced) =
      search graph policy method traced.state := by
  unfold tracedSearch search
  split
  · rfl
  · split
    · rfl
    · exact tracedScan_erase graph policy _ _

/-! ## Scans that close no cycle -/

variable {graph : CallGraph} {policy : Policy}

/-- A scan that closes no cycle keeps none, and the loop goes on with the outer
frames. -/
theorem Scans.tracedScan_clear {methods : List Symbol} {state after : State}
    (scans : Scans graph policy methods state false after) (outer : List (List Symbol))
    (earlier : List (List Symbol)) :
    tracedScan graph policy (methods :: outer) ⟨state, earlier⟩ =
      tracedScan graph policy outer ⟨after.leave 1, earlier⟩ := by
  generalize clear : false = found at scans
  induction scans generalizing outer with
  | done => rw [tracedScan]
  | closed _ => cases clear
  | known closing seen _ ih =>
      rw [tracedScan, if_neg (by simp [closing]), if_pos seen]
      exact ih outer clear
  | unwound _ _ _ _ => cases clear
  | @passed method later state inner after found closing seen _ _ inside rest =>
      rw [tracedScan, if_neg (by simp [closing]), if_neg (by simp [seen]),
        inside (later :: outer) rfl]
      exact rest outer clear

/-- A traced search that closes no cycle keeps none. -/
theorem Scans.tracedSearch_clear {root : Symbol} {state after : State}
    (scans : Scans graph policy [root] state false after) (earlier : List (List Symbol)) :
    tracedSearch graph policy root ⟨state, earlier⟩ = (false, ⟨after, earlier⟩) := by
  unfold tracedSearch
  cases scans with
  | known notClosing seen rest =>
      cases rest
      rw [if_neg (by simp [notClosing]), if_pos seen]
  | passed notClosing unseen inside rest =>
      cases rest
      rw [if_neg (by simp [notClosing]), if_neg (by simp [unseen]),
        inside.tracedScan_clear [] earlier, tracedScan]

end Search

end CyclicCalls
