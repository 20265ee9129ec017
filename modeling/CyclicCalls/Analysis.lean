import CyclicCalls.Cycle.Search
import CyclicCalls.Settings
import CyclicCalls.Workspace
/-!
# A whole analysis

The solution is opened and the calls of all its declarations are recorded; the
call graph of the methods that the policy lets through is built; and the graph is
searched for cycles. Nothing is searched before everything is recorded.
-/

set_option autoImplicit false

namespace CyclicCalls.Analysis

open Solution

/-- Why an analysis fails: the solution cannot be loaded, or the search was
stopped at a root. -/
inductive Failure where
  | load (failure : LoadFailure)
  | stopped (root : Symbol)
deriving DecidableEq, Repr

/-- The wording of a failure. -/
def Failure.message : Failure → String
  | .load failure => failure.message
  | .stopped root => Search.stoppedMessage root

/-- The graph of the records that the policy lets through. Callers that are left
out are reported. -/
def graph (records : List CallRecord) (policy : Policy) : Logged CallGraph :=
  let skipped := records.filter (fun record => policy.ignores record.caller)
  let built := CallGraph.ofRecords records policy
  ⟨built,
    skipped.map (fun record => .callerSkipped record.caller.qualifiedName) ++
      [.graphBuilt built.callerCount built.callCount skipped.length]⟩

/-- The chains of a graph. Each is reported when it is found. -/
def cycles (graph : CallGraph) (policy : Policy) : Logged (Except Failure (List String)) :=
  match Search.run graph policy {} with
  | (state, none) =>
    ⟨.ok state.log.chains,
      state.log.chains.map .cycleFound ++ [.cyclesCounted state.log.chains.length]⟩
  | (state, some root) => ⟨.error (.stopped root), state.log.chains.map .cycleFound⟩

/-- The chains of the solution at a path. -/
def run (disk : Disk) (solution : Path) (policy : Policy) :
    Logged (Except Failure (List String)) := do
  Logged.say (.analysing solution.text policy.scope)
  match ← ({} : Workspace).collect disk solution.text with
  | .error failure => pure (.error (.load failure))
  | .ok (records, _) =>
    let built ← graph records policy
    cycles built policy

end CyclicCalls.Analysis
