import CyclicCalls.CallGraph
import CyclicCalls.Cycle.Trail
/-!
# Searching a call graph for cycles

A depth-first search over the rows of a call graph. Arriving at a method does one
of three things. If the method may close a cycle and is on the trail, the cycle
is taken down and the whole search ends there. If it was visited before, nothing
happens. Otherwise it is marked as visited, becomes the latest step of the trail,
and its callees are scanned.

The callees still to be scanned are kept in frames, one for each step that the
search has made; no recursion follows the depth of the graph. The search ends
because a visit uses up the row of a caller: twice the calls of the callers not
yet visited, plus the weight of the frames, goes down with every turn
(`Search.scan`).

`Search.run` searches from every caller that is still unvisited, in the order of
the graph. Visited methods stay visited from one root to the next.
-/

set_option autoImplicit false

namespace CyclicCalls

namespace CallGraph

/-- Twice the number of calls in the rows of callers outside `visited`. -/
def openCalls (graph : CallGraph) (visited : List Nat) : Nat :=
  graph.rows.foldr
    (fun row count => (if visited.contains row.1.index then 0 else 2 * row.2.length) + count) 0

/-- Visiting a method takes its row out of the open calls. -/
theorem openCalls_visit (graph : CallGraph) (visited : List Nat) (method : Symbol)
    (fresh : visited.contains method.index = false) :
    graph.openCalls (method.index :: visited) + 2 * (graph.callees method).length ≤
      graph.openCalls visited := by
  unfold openCalls callees
  generalize graph.rows = rows
  induction rows with
  | nil => simp
  | cons row rows ih =>
    by_cases same : row.1.index = method.index
    · have rest := Nat.le_trans (Nat.le_add_right _ _) ih
      have found : row.1.same method = true := by simp [Symbol.same, same]
      simp only [List.foldr_cons, List.find?_cons, found]
      simp only [same, fresh, List.contains_cons, beq_self_eq_true, Bool.true_or, if_true]
      simp only [List.contains_cons] at rest
      simp only [Bool.false_eq_true, if_false]
      omega
    · have skipped : row.1.same method = false := by simp [Symbol.same, same]
      simp only [List.foldr_cons, List.find?_cons, skipped]
      have kept : (method.index :: visited).contains row.1.index =
          visited.contains row.1.index := by
        simp [same]
      rw [kept]
      omega

end CallGraph

namespace Search

/-- What a search has seen: the numbers visited, the trail, and the chains. -/
structure State where
  visited : List Nat := []
  trail : Trail := {}
  log : ChainLog := {}
deriving DecidableEq, Repr

namespace State

/-- Whether a method was visited before. -/
def knows (state : State) (method : Symbol) : Bool :=
  state.visited.contains method.index

/-- Mark a method as visited. -/
def mark (state : State) (method : Symbol) : State :=
  if state.knows method then state
  else { state with visited := method.index :: state.visited }

/-- Visit a method that was not visited before. -/
def enter (state : State) (method : Symbol) : State :=
  { state with visited := method.index :: state.visited, trail := state.trail.push method }

/-- Take the latest steps back. -/
def leave (state : State) (count : Nat) : State :=
  { state with trail := state.trail.dropMany count }

/-- Take down the cycle that arriving at a method closes. -/
def close (state : State) (method : Symbol) : State :=
  { state with log := state.log.add (chainOf (state.trail.closedBy method)) }

end State

/-- Whether arriving at a method closes a cycle. -/
def closes (policy : Policy) (state : State) (method : Symbol) : Bool :=
  !policy.ignores method && state.trail.holds method

/-- Each callee still to be scanned counts two, each frame one. -/
def weight (frames : List (List Symbol)) : Nat :=
  frames.foldr (fun frame count => 2 * frame.length + 1 + count) 0

/-- Scan the frames, the innermost first, until they are used up or a cycle is
closed. The answer says whether a cycle was closed. -/
def scan (graph : CallGraph) (policy : Policy) (frames : List (List Symbol)) (state : State) :
    Bool × State :=
  match frames with
  | [] => (false, state)
  | [] :: outer => scan graph policy outer (state.leave 1)
  | (method :: callees) :: outer =>
    if closes policy state method then
      (true, (state.close method).leave (outer.length + 1))
    else if state.knows method then
      scan graph policy (callees :: outer) state
    else
      scan graph policy (graph.callees method :: callees :: outer) (state.enter method)
termination_by graph.openCalls state.visited + weight frames
decreasing_by
  · simp [weight, State.leave]
  · simp [weight]
  · rename_i fresh
    have used := graph.openCalls_visit state.visited method (by simpa [State.knows] using fresh)
    simp only [weight, State.enter, List.foldr_cons, List.length_cons] at used ⊢
    omega

/-- Search from one method. -/
def search (graph : CallGraph) (policy : Policy) (method : Symbol) (state : State) :
    Bool × State :=
  if closes policy state method then (true, state.close method)
  else if state.knows method then (false, state)
  else scan graph policy [graph.callees method] (state.enter method)

/-- Search from each of the given roots that is not visited when its turn comes.
A trail that is not empty after a search stops the run at that root. -/
def runFrom (graph : CallGraph) (policy : Policy) :
    List Symbol → State → State × Option Symbol
  | [], state => (state, none)
  | root :: roots, state =>
    if state.knows root then runFrom graph policy roots state
    else
      let next := (search graph policy root state).2
      if next.trail.steps.isEmpty then runFrom graph policy roots next else (next, some root)

/-- Search from every caller of the graph. -/
def run (graph : CallGraph) (policy : Policy) (state : State) : State × Option Symbol :=
  runFrom graph policy graph.callers state

/-- The wording for a run that was stopped at a root. -/
def stoppedMessage (root : Symbol) : String :=
  "recursion stack not empty after searching from " ++ root.qualifiedName

end Search

/-- The distinct chains of a graph in the order in which they are found. -/
def CallGraph.cycles (graph : CallGraph) (policy : Policy) : List String :=
  (Search.run graph policy {}).1.log.chains

end CyclicCalls
