import CyclicCalls.Policy
/-!
# Call graphs

A call graph has a row for each caller: the caller and the methods it calls, in
source order and with repetitions. Only callers have rows. A method that is only
called has none, and asking for its callees gives the empty list.

A graph grows by callers and calls until it is frozen; afterwards both are
refused. `CallGraph.ofRecords` is the graph of the callers that a policy lets
through.
-/

set_option autoImplicit false

namespace CyclicCalls

/-- Callers with their callees, in the order in which the callers were first
mentioned. -/
structure CallGraph where
  rows : List (Symbol × List Symbol) := []
  frozen : Bool := false
deriving DecidableEq, Repr

/-- Why a graph refuses an operation. -/
inductive CallGraphError where
  | frozen
deriving DecidableEq, Repr

/-- The wording of a refusal. -/
def CallGraphError.message : CallGraphError → String
  | .frozen => "call graph is frozen"

namespace CallGraph

/-- Add callees to the row of a caller. A caller without a row gets one at the
end; a row keeps the caller it was made for. -/
def extendRows (caller : Symbol) (callees : List Symbol) :
    List (Symbol × List Symbol) → List (Symbol × List Symbol)
  | [] => [(caller, callees)]
  | (first, known) :: rows =>
    if first.same caller then (first, known ++ callees) :: rows
    else (first, known) :: extendRows caller callees rows

/-- The graph with callees added to the row of a caller. -/
def extend (graph : CallGraph) (caller : Symbol) (callees : List Symbol) : CallGraph :=
  { graph with rows := extendRows caller callees graph.rows }

/-- Make sure that a caller has a row. -/
def addCaller (graph : CallGraph) (caller : Symbol) : Except CallGraphError CallGraph :=
  if graph.frozen then .error .frozen else .ok (graph.extend caller [])

/-- Record a call at the end of the caller's row. -/
def addCall (graph : CallGraph) (caller callee : Symbol) : Except CallGraphError CallGraph :=
  if graph.frozen then .error .frozen else .ok (graph.extend caller [callee])

/-- The graph with growth ended. -/
def freeze (graph : CallGraph) : CallGraph :=
  { graph with frozen := true }

/-- The callees of a method in source order; none without a row. -/
def callees (graph : CallGraph) (caller : Symbol) : List Symbol :=
  match graph.rows.find? (fun row => row.1.same caller) with
  | some row => row.2
  | none => []

/-- The callers, in the order of first mention. -/
def callers (graph : CallGraph) : List Symbol :=
  graph.rows.map (·.1)

/-- Whether a method has a row. -/
def hasCaller (graph : CallGraph) (caller : Symbol) : Bool :=
  graph.rows.any (fun row => row.1.same caller)

/-- The calls as pairs, row by row. -/
def calls (graph : CallGraph) : List (Symbol × Symbol) :=
  graph.rows.flatMap (fun row => row.2.map (fun callee => (row.1, callee)))

/-- The number of callers. -/
def callerCount (graph : CallGraph) : Nat :=
  graph.rows.length

/-- The number of calls. -/
def callCount (graph : CallGraph) : Nat :=
  graph.rows.foldr (fun row count => row.2.length + count) 0

end CallGraph

/-- A declared method with the targets of its calls in source order; a call
whose target is unknown has none. -/
structure CallRecord where
  caller : Symbol
  targets : List (Option Symbol)
deriving DecidableEq, Repr

namespace CallGraph

/-- Take one record into the graph, unless the policy leaves its caller out. -/
def addRecord (policy : Policy) (graph : CallGraph) (record : CallRecord) : CallGraph :=
  if policy.ignores record.caller then graph
  else graph.extend record.caller (record.targets.filterMap id)

/-- The frozen graph of the records whose callers the policy lets through. Their
callees are taken as they are. -/
def ofRecords (records : List CallRecord) (policy : Policy) : CallGraph :=
  (records.foldl (addRecord policy) {}).freeze

end CallGraph

end CyclicCalls
