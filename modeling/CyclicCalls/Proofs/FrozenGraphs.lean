import CyclicCalls.Proofs.GroupedCalls
/-!
# The two lives of a graph

A graph is made by adding callers and calls, in any order, until it is frozen. Both ways of adding
make a row when the caller has none. Once the graph is frozen they are refused, and freezing it
again changes nothing.

What an operation does is said once for a graph that grows (`Operation.apply_of_growing`) and once
for a frozen one (`Operation.apply_of_frozen`). From the first follows what is in a graph after
operations without a freeze: they are a sequence of extensions (`grows_of_growing`), and
callers, callees and the number of calls can be read off them one by one. From the second follows
that the operations from the first freeze on leave one and the same graph (`trace_of_frozen`).

That a refused operation leaves the graph as it was depends on where it is refused. `Operation.edit`
is the operation as a sequence of steps on a graph that is changed in place: a check, a row for the
caller, the callee at the end of it. An error in such a sequence undoes nothing that was done
before. The check comes first, so there is nothing to undo (`Operation.run_edit`).

Main statement: `freezing_splits_operations`.
-/

set_option autoImplicit false

namespace CyclicCalls

theorem Symbol.same_comm (first second : Symbol) : first.same second = second.same first :=
  BEq.comm

namespace CallGraph

/-- What can be done to a graph. -/
inductive Operation where
  | addCaller (caller : Symbol)
  | addCall (caller callee : Symbol)
  | freeze
deriving DecidableEq, Repr

namespace Operation

/-- The graph after an operation, or why the operation is refused. -/
def apply (graph : CallGraph) : Operation → Except CallGraphError CallGraph
  | addCaller caller => graph.addCaller caller
  | addCall caller callee => graph.addCall caller callee
  | freeze => .ok graph.freeze

/-- Why an operation is refused, if it is. -/
def refusal? (graph : CallGraph) (operation : Operation) : Option CallGraphError :=
  match operation.apply graph with
  | .ok _ => none
  | .error refusal => some refusal

/-- The graph after an operation. One that is refused leaves the graph as it is. -/
def perform (graph : CallGraph) (operation : Operation) : CallGraph :=
  match operation.apply graph with
  | .ok next => next
  | .error _ => graph

/-- The caller that an operation adds or adds to. -/
def caller? : Operation → Option Symbol
  | addCaller caller => some caller
  | addCall caller _ => some caller
  | freeze => none

/-- The callees that an operation adds. -/
def callees : Operation → List Symbol
  | addCaller _ => []
  | addCall _ callee => [callee]
  | freeze => []

/-- The callee that an operation adds to the row of a method. -/
def calleeOf? (method : Symbol) : Operation → Option Symbol
  | addCall caller callee => if caller.same method then some callee else none
  | _ => none

/-- Whether an operation adds a call. -/
def isCall : Operation → Bool
  | addCall _ _ => true
  | _ => false

end Operation

open Operation

/-- The graph after some operations on a new graph. -/
def built (operations : List Operation) : CallGraph :=
  operations.foldl perform {}

/-- What becomes of each operation: why it is refused, if it is, and the graph after it. -/
def trace : CallGraph → List Operation → List (Option CallGraphError × CallGraph)
  | _, [] => []
  | graph, operation :: later =>
    (operation.refusal? graph, operation.perform graph) :: trace (operation.perform graph) later

theorem trace_append (graph : CallGraph) (first second : List Operation) :
    trace graph (first ++ second) =
      trace graph first ++ trace (first.foldl perform graph) second := by
  induction first generalizing graph with
  | nil => rfl
  | cons operation later ih =>
      rw [List.cons_append, trace, trace, ih, List.cons_append, List.foldl_cons]

/-! ## One operation -/

namespace Operation

variable {graph : CallGraph} {operation : Operation}

/-- A graph that grows takes every caller and every call. -/
theorem apply_of_growing (growing : graph.frozen = false) {caller : Symbol}
    (adds : operation.caller? = some caller) :
    operation.apply graph = .ok (graph.extend caller operation.callees) := by
  cases operation with
  | addCaller own =>
      cases adds
      rw [apply, CallGraph.addCaller, growing]
      rfl
  | addCall own callee =>
      cases adds
      rw [apply, CallGraph.addCall, growing]
      rfl
  | freeze => cases adds

/-- A frozen graph refuses every caller and every call, and stays as it is when it is frozen
again. -/
theorem apply_of_frozen (frozen : graph.frozen = true) :
    operation.apply graph = if operation = freeze then .ok graph else .error .frozen := by
  cases operation with
  | addCaller caller => rw [apply, CallGraph.addCaller, if_pos frozen, if_neg (by simp)]
  | addCall caller callee => rw [apply, CallGraph.addCall, if_pos frozen, if_neg (by simp)]
  | freeze =>
      obtain ⟨rows, mark⟩ := graph
      cases frozen
      rfl

theorem perform_of_frozen (frozen : graph.frozen = true) : operation.perform graph = graph := by
  rw [perform, apply_of_frozen frozen]
  by_cases again : operation = freeze
  · rw [if_pos again]
  · rw [if_neg again]

theorem refusal?_of_frozen (frozen : graph.frozen = true) :
    operation.refusal? graph = if operation = freeze then none else some .frozen := by
  rw [refusal?, apply_of_frozen frozen]
  by_cases again : operation = freeze
  · rw [if_pos again, if_pos again]
  · rw [if_neg again, if_neg again]

theorem caller?_eq_none_iff : operation.caller? = none ↔ operation = freeze := by
  cases operation <;> simp [caller?]

end Operation

/-! ## A frozen graph -/

/-- **Nothing changes in a frozen graph**, and what is not a freeze is refused. -/
theorem trace_of_frozen {graph : CallGraph} (frozen : graph.frozen = true)
    (operations : List Operation) :
    trace graph operations =
        operations.map (fun operation =>
          (if operation = .freeze then none else some .frozen, graph)) ∧
      operations.foldl perform graph = graph := by
  induction operations with
  | nil => exact ⟨rfl, rfl⟩
  | cons operation later ih =>
      rw [trace, List.foldl_cons, refusal?_of_frozen frozen, perform_of_frozen frozen, ih.1, ih.2]
      exact ⟨rfl, rfl⟩

/-! ## A graph that grows -/

/-- Operations none of which freezes the graph, each extending the row of its caller. -/
inductive Grows : CallGraph → List Operation → CallGraph → Prop where
  | done {graph : CallGraph} : Grows graph [] graph
  | extend {graph after : CallGraph} {operation : Operation} {later : List Operation}
      {caller : Symbol} : operation.caller? = some caller →
        Grows (graph.extend caller operation.callees) later after →
          Grows graph (operation :: later) after

/-- **Nothing is refused by a graph that grows**, until it is frozen. -/
theorem grows_of_growing {graph : CallGraph} (growing : graph.frozen = false)
    {operations : List Operation} (adding : Operation.freeze ∉ operations) :
    Grows graph operations (operations.foldl perform graph) ∧
      ∀ step ∈ trace graph operations, step.1 = none ∧ step.2.frozen = false := by
  induction operations generalizing graph with
  | nil => exact ⟨.done, fun _ member => nomatch member⟩
  | cons operation later ih =>
      obtain ⟨first, rest⟩ := not_or.mp (mt List.mem_cons.mpr adding)
      cases adds : operation.caller? with
      | none => exact absurd (caller?_eq_none_iff.mp adds).symm first
      | some caller =>
          have applied := apply_of_growing growing adds
          have next : operation.perform graph = graph.extend caller operation.callees := by
            rw [perform, applied]
          have accepted : operation.refusal? graph = none := by
            rw [refusal?, applied]
          have still : (graph.extend caller operation.callees).frozen = false := growing
          obtain ⟨grows, unrefused⟩ := ih still rest
          rw [List.foldl_cons, next, trace, next, accepted]
          exact ⟨.extend adds grows, List.forall_mem_cons.mpr ⟨⟨rfl, growing⟩, unrefused⟩⟩

theorem hasCaller_congr {graph : CallGraph} {first second : Symbol}
    (same : first.index = second.index) : graph.hasCaller first = graph.hasCaller second := by
  unfold hasCaller Symbol.same
  rw [same]

theorem hasCaller_extend (graph : CallGraph) (caller : Symbol) (callees : List Symbol)
    (method : Symbol) :
    (graph.extend caller callees).hasCaller method =
      (graph.hasCaller method || caller.same method) := by
  rw [Bool.eq_iff_iff, Bool.or_eq_true, hasCaller_iff, hasCaller_iff, Symbol.same_iff,
    callers_extend]
  split
  · rename_i known
    constructor
    · exact .inl
    · rintro (listed | same)
      · exact listed
      · obtain ⟨first, member, equal⟩ := hasCaller_iff.mp known
        exact ⟨first, member, equal.trans same⟩
  · simp [or_and_right, exists_or]

namespace Grows

variable {graph after : CallGraph} {operations : List Operation}

/-- **A caller gets its row where it is mentioned first.** -/
theorem callers (grows : Grows graph operations after) :
    after.callers = graph.callers ++ ((operations.filterMap caller?).filter
      (fun caller => !graph.hasCaller caller)).eraseDupsBy Symbol.same := by
  induction grows with
  | done => simp
  | @extend graph after operation later caller adds _ ih =>
      have among : (fun other => !(graph.extend caller operation.callees).hasCaller other) =
          fun other => !other.same caller && !graph.hasCaller other := by
        funext other
        rw [hasCaller_extend, Bool.not_or, Bool.and_comm, Symbol.same_comm]
      rw [ih, among, callers_extend, List.filterMap_cons_some adds]
      cases known : graph.hasCaller caller with
      | true =>
          rw [if_pos rfl, List.filter_cons_of_neg (by simp [known])]
          congr 2
          apply List.filter_congr
          intro other _
          cases same : other.same caller with
          | false => simp
          | true => simp [← known, hasCaller_congr (Symbol.same_iff.mp same)]
      | false =>
          rw [if_neg Bool.false_ne_true, List.filter_cons_of_pos (by simp [known]),
            List.eraseDupsBy_cons, List.filter_filter, List.append_assoc, List.singleton_append]
          simp only [Bool.decide_eq_false]

/-- **A row holds the callees of its calls in order.** -/
theorem callees_eq (grows : Grows graph operations after) (method : Symbol) :
    after.callees method = graph.callees method ++ operations.filterMap (calleeOf? method) := by
  induction grows with
  | done => simp
  | @extend graph after operation later caller adds _ ih =>
      rw [ih, callees_extend, List.append_assoc]
      congr 1
      cases operation with
      | addCaller own => simp [Operation.callees, calleeOf?, List.filterMap_cons]
      | addCall own callee =>
          cases adds
          by_cases same : caller.same method = true
          · simp [Operation.callees, calleeOf?, same]
          · simp [calleeOf?, same]
      | freeze => exact nomatch adds

theorem callCount_eq (grows : Grows graph operations after) :
    after.callCount = graph.callCount + operations.countP isCall := by
  induction grows with
  | done => rfl
  | @extend graph after operation later caller adds _ ih =>
      rw [ih, callCount_extend, Nat.add_assoc, List.countP_cons]
      cases operation with
      | addCaller own => simp [Operation.callees, isCall]
      | addCall own callee => simp [Operation.callees, isCall, Nat.add_comm]
      | freeze => exact nomatch adds

/-- The methods with rows are the callers that are mentioned, and no others. -/
theorem hasCaller_eq (grows : Grows graph operations after) (method : Symbol) :
    after.hasCaller method =
      (graph.hasCaller method || (operations.filterMap caller?).any (·.same method)) := by
  induction grows with
  | done => simp
  | @extend graph after operation later caller adds _ ih =>
      rw [ih, hasCaller_extend, List.filterMap_cons_some adds, List.any_cons, Bool.or_assoc]

end Grows

/-! ## Changes in place -/

/-- Steps that change a graph in place. An error undoes nothing. -/
abbrev Edit := EStateM CallGraphError CallGraph Unit

/-- Go on only if the graph is not frozen. -/
def Edit.requireGrowing : Edit := do
  if (← get).frozen then throw .frozen

/-- Make a row for a caller, unless there is one. -/
def Edit.ensureRow (caller : Symbol) : Edit :=
  modify (·.extend caller [])

/-- Put a callee at the end of the row of a caller. -/
def Edit.appendCallee (caller callee : Symbol) : Edit :=
  modify (·.extend caller [callee])

/-- An operation as a sequence of steps. -/
def Operation.edit : Operation → Edit
  | addCaller caller => do
    Edit.requireGrowing
    Edit.ensureRow caller
  | addCall caller callee => do
    Edit.requireGrowing
    Edit.ensureRow caller
    Edit.appendCallee caller callee
  | freeze => modify CallGraph.freeze

theorem Edit.run_requireGrowing_bind (graph : CallGraph) (later : Edit) :
    (Edit.requireGrowing >>= fun _ => later).run graph =
      if graph.frozen then .error .frozen graph else later.run graph := by
  obtain ⟨rows, frozen⟩ := graph
  cases frozen with
  | true => rfl
  | false => rfl

/-- **An operation in place does what it is said to do**, and one that is refused is refused before
anything is changed. -/
theorem Operation.run_edit (operation : Operation) (graph : CallGraph) :
    operation.edit.run graph =
      match operation.refusal? graph with
      | none => .ok () (operation.perform graph)
      | some refusal => .error refusal (operation.perform graph) := by
  cases operation with
  | addCaller caller =>
      rw [edit, Edit.run_requireGrowing_bind, refusal?, perform, apply, CallGraph.addCaller]
      cases graph.frozen with
      | true => rfl
      | false => rfl
  | addCall caller callee =>
      rw [edit, Edit.run_requireGrowing_bind, refusal?, perform, apply, CallGraph.addCall]
      cases graph.frozen with
      | true => rfl
      | false =>
          have twice : (graph.extend caller []).extend caller [callee] =
              graph.extend caller [callee] := by
            unfold extend
            rw [extendRows_extendRows, List.nil_append]
          show EStateM.Result.ok () ((graph.extend caller []).extend caller [callee]) = _
          rw [twice]
          rfl
  | freeze => rfl

/-! ## The operations on a new graph -/

/-- The operations before the first freeze. -/
def untilFreeze (operations : List Operation) : List Operation :=
  operations.takeWhile (· != .freeze)

/-- The operations from the first freeze on. -/
def fromFreeze (operations : List Operation) : List Operation :=
  operations.dropWhile (· != .freeze)

theorem untilFreeze_append_fromFreeze (operations : List Operation) :
    untilFreeze operations ++ fromFreeze operations = operations :=
  List.takeWhile_append_dropWhile

theorem freeze_notMem_untilFreeze (operations : List Operation) :
    Operation.freeze ∉ untilFreeze operations := by
  intro member
  have differs := List.all_eq_true.mp List.all_takeWhile _ member
  exact absurd rfl (bne_iff_ne.mp differs)

/-- The operations from the first freeze on begin with it, if there is one. -/
theorem fromFreeze_cases (operations : List Operation) :
    .freeze ∉ operations ∧ fromFreeze operations = [] ∨
      .freeze ∈ operations ∧ ∃ later, fromFreeze operations = .freeze :: later := by
  have first := List.head?_dropWhile_not (· != Operation.freeze) operations
  cases rest : fromFreeze operations with
  | nil =>
      refine .inl ⟨?_, rfl⟩
      rw [← untilFreeze_append_fromFreeze operations, rest, List.append_nil]
      exact freeze_notMem_untilFreeze operations
  | cons operation later =>
      rw [show operations.dropWhile (· != Operation.freeze) = operation :: later from rest] at first
      have own : operation = .freeze := by simpa using first
      refine .inr ⟨?_, later, by rw [own]⟩
      rw [← untilFreeze_append_fromFreeze operations, rest, own]
      exact List.mem_append_right _ List.mem_cons_self

/-- The first freeze ends the life of the graph that grows. -/
theorem trace_built (operations : List Operation) :
    trace {} operations = trace {} (untilFreeze operations) ++
        (fromFreeze operations).map (fun operation =>
          (if operation = .freeze then none else some .frozen, built operations)) ∧
      built operations =
        if .freeze ∈ operations then (built (untilFreeze operations)).freeze
        else built (untilFreeze operations) := by
  have whole : built operations =
      (fromFreeze operations).foldl perform (built (untilFreeze operations)) := by
    unfold built
    rw [← List.foldl_append, untilFreeze_append_fromFreeze]
  have traced : trace {} operations = trace {} (untilFreeze operations) ++
      trace (built (untilFreeze operations)) (fromFreeze operations) := by
    rw [built, ← trace_append, untilFreeze_append_fromFreeze]
  rcases fromFreeze_cases operations with ⟨absent, nothing⟩ | ⟨present, later, rest⟩
  · rw [traced, if_neg absent, whole, nothing]
    exact ⟨rfl, rfl⟩
  · obtain ⟨kept, same⟩ := trace_of_frozen
      (rfl : (built (untilFreeze operations)).freeze.frozen = true) later
    have final : built operations = (built (untilFreeze operations)).freeze := by
      rw [whole, rest, List.foldl_cons]
      exact same
    rw [traced, if_pos present, final, rest, trace]
    refine ⟨?_, rfl⟩
    show _ ++ (none, _) :: trace (built (untilFreeze operations)).freeze later = _
    rw [kept]
    rfl

/-- The number of calls is the number of pairs that list them. -/
theorem length_calls (graph : CallGraph) : graph.calls.length = graph.callCount := by
  unfold calls callCount
  induction graph.rows with
  | nil => rfl
  | cons row rows ih =>
      rw [List.flatMap_cons, List.length_append, List.length_map, ih]
      rfl

/-- **Freezing splits the operations on a new graph.** Take any sequence of operations.

* Made in place, an operation that is refused has changed nothing.
* Before the first freeze no operation is refused. From the first freeze on every operation leaves
  the final graph, and those that add a caller or a call are refused, all of them and no others.
* The final graph is the one made by the operations before the first freeze, frozen if there is a
  freeze.
* Its callers are those of the operations before the first freeze, in the order of first mention,
  and a method has a row only if it is among them. The callees of a method are those of the calls
  added for it, in order. There are as many calls as calls were added, and as pairs are listed. -/
theorem freezing_splits_operations (operations : List Operation) :
    (∀ (operation : Operation) (graph : CallGraph),
      operation.edit.run graph =
        match operation.refusal? graph with
        | none => .ok () (operation.perform graph)
        | some refusal => .error refusal (operation.perform graph)) ∧
    (∀ step ∈ trace {} (untilFreeze operations), step.1 = none ∧ step.2.frozen = false) ∧
    trace {} operations = trace {} (untilFreeze operations) ++
      (fromFreeze operations).map (fun operation =>
        (if operation = .freeze then none else some .frozen, built operations)) ∧
    built operations =
      (if .freeze ∈ operations then (built (untilFreeze operations)).freeze
        else built (untilFreeze operations)) ∧
    (built operations).callers =
      ((untilFreeze operations).filterMap caller?).eraseDupsBy Symbol.same ∧
    (∀ method, (built operations).hasCaller method = true ↔
      ∃ caller ∈ (untilFreeze operations).filterMap caller?, caller.index = method.index) ∧
    (∀ method, (built operations).callees method =
      (untilFreeze operations).filterMap (calleeOf? method)) ∧
    (built operations).callCount = (built operations).calls.length ∧
    (built operations).callCount = (untilFreeze operations).countP isCall := by
  obtain ⟨grows, unrefused⟩ :=
    grows_of_growing (rfl : ({} : CallGraph).frozen = false) (freeze_notMem_untilFreeze operations)
  obtain ⟨traced, final⟩ := trace_built operations
  -- The mark of a frozen graph does not show in its rows.
  have rows : (built operations).rows = (built (untilFreeze operations)).rows := by
    rw [final]
    split
    · rfl
    · rfl
  refine ⟨run_edit, unrefused, traced, final, ?_, ?_, ?_, (length_calls _).symm, ?_⟩
  · rw [callers, rows]
    exact grows.callers.trans (by simp [hasCaller, CallGraph.callers])
  · intro method
    rw [hasCaller, rows]
    have known : (built (untilFreeze operations)).hasCaller method =
        ((untilFreeze operations).filterMap caller?).any (·.same method) :=
      (grows.hasCaller_eq method).trans (Bool.false_or _)
    show (built (untilFreeze operations)).hasCaller method = true ↔ _
    rw [known, List.any_eq_true]
    exact exists_congr fun caller => and_congr_right fun _ => Symbol.same_iff
  · intro method
    rw [callees, rows]
    exact grows.callees_eq method
  · rw [callCount, rows]
    exact grows.callCount_eq.trans (Nat.zero_add _)

end CallGraph

namespace Sample

/-- `load` is mentioned before `main`, and `parse` as a callee only; the graph is frozen twice, and
after each freeze something is added. -/
def life : List CallGraph.Operation :=
  [.addCall load parse, .addCaller main, .addCall load retry, .addCall main load, .addCaller load,
    .freeze, .addCall parse load, .freeze, .addCaller retry]

end Sample

/-- The two additions after the first freeze are refused, and `parse` and `retry` have no rows. -/
theorem CallGraph.freezing_splits_operations_sample :
    (CallGraph.trace {} Sample.life).map Prod.fst =
        [none, none, none, none, none, none, some .frozen, none, some .frozen] ∧
      (CallGraph.built Sample.life).callers = [Sample.load, Sample.main] ∧
      (CallGraph.built Sample.life).callees Sample.load = [Sample.parse, Sample.retry] ∧
      (CallGraph.built Sample.life).calls.length = 3 := by
  obtain ⟨-, -, traced, -, callers, -, callees, listed, counted⟩ :=
    freezing_splits_operations Sample.life
  have early : CallGraph.untilFreeze Sample.life = Sample.life.take 5 := by decide
  have late : CallGraph.fromFreeze Sample.life = Sample.life.drop 5 := by decide
  refine ⟨?_, callers.trans ?_, (callees Sample.load).trans ?_, listed.symm.trans
    (counted.trans ?_)⟩
  · rw [traced, late, List.map_append, List.map_map]
    rfl
  · rw [early]
    decide
  · rw [early]
    decide
  · rw [early]
    decide

end CyclicCalls
