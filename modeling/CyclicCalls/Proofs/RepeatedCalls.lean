import CyclicCalls.Proofs.InducedGraph
/-!
# Calls that a search passes over

A row may name a callee several times, and it may name methods that have no row. Neither matters
to the chains of a graph.

A search that comes to a callee for the second time in one row has scanned it before without
closing a cycle, for otherwise the search would have ended there. The callee is visited by then.
Between the two times the trail has changed and has been put back, so what the callee could not
close the first time it cannot close the second time, be it ignored and on the trail, finished, or
visited before. It is *passed over* (`PassedOver`), and the search goes on as if it were not in the
row (`Scans.dropRepeats`). Both searches are in the same state all the time, unlike with leaves,
which only one of them visits (`Agree`).

Main statement: `cycles_ignore_repeats_and_leaves`.
-/

set_option autoImplicit false

namespace CyclicCalls

namespace CallGraph

/-- The graph with each row naming a callee once, where it stood first. -/
def dropRepeats (graph : CallGraph) : CallGraph :=
  { graph with rows := graph.rows.map (fun row => (row.1, row.2.eraseDupsBy Symbol.same)) }

/-- The graph with the callees of each row that have a row themselves, each named once. -/
def condensed (graph : CallGraph) : CallGraph :=
  { graph with
    rows := graph.rows.map (fun row =>
      (row.1, (row.2.filter graph.hasCaller).eraseDupsBy Symbol.same)) }

@[simp] theorem callers_dropRepeats (graph : CallGraph) :
    graph.dropRepeats.callers = graph.callers := by
  simp [callers, dropRepeats]

theorem callees_dropRepeats (graph : CallGraph) (method : Symbol) :
    graph.dropRepeats.callees method = (graph.callees method).eraseDupsBy Symbol.same := by
  unfold dropRepeats callees
  rw [List.find?_map]
  simp only [Function.comp_def]
  cases graph.rows.find? (fun row => row.1.same method) with
  | none => rfl
  | some row => rfl

/-- Condensing takes the leaves out first and then the repetitions. -/
theorem condensed_eq (graph : CallGraph) : graph.condensed = graph.dropLeaves.dropRepeats := by
  simp [condensed, dropLeaves, dropRepeats]

/-- Taking leaves out brings in no symbols. -/
theorem symbols_dropLeaves_subset (graph : CallGraph) :
    graph.dropLeaves.symbols ⊆ graph.symbols := by
  intro symbol among
  obtain ⟨thinned, listed, mentioned⟩ := List.mem_flatMap.mp among
  obtain ⟨row, member, rfl⟩ := List.mem_map.mp listed
  apply List.mem_flatMap.mpr
  refine ⟨row, member, ?_⟩
  rcases List.mem_cons.mp mentioned with rfl | callee
  · exact List.mem_cons_self
  · exact List.mem_cons_of_mem _ (List.mem_filter.mp callee).1

end CallGraph

namespace Search

variable {graph : CallGraph} {policy : Policy}

/-! ## Methods that are passed over -/

/-- Arriving at the method changes nothing: it closes no cycle and was visited before. -/
structure PassedOver (policy : Policy) (state : State) (method : Symbol) : Prop where
  notClosing : closes policy state method = false
  seen : state.knows method = true

section PassedOver

variable {state later : State} {method : Symbol}

/-- What a method closes depends on the trail alone. -/
theorem Keeps.closes_eq (keeps : Keeps state later) (policy : Policy) (method : Symbol) :
    closes policy later method = closes policy state method := by
  unfold closes
  rw [keeps.trail]

/-- A method is still passed over when the trail has been put back. -/
theorem PassedOver.of_keeps (passedOver : PassedOver policy state method)
    (keeps : Keeps state later) : PassedOver policy later method := by
  constructor
  · rw [keeps.closes_eq]
    exact passedOver.notClosing
  · exact State.knows_of_subset keeps.visited passedOver.seen

theorem not_passedOver_of_closes (closing : closes policy state method = true) :
    ¬ PassedOver policy state method := by
  intro passedOver
  rw [passedOver.notClosing] at closing
  exact Bool.false_ne_true closing

theorem not_passedOver_of_unseen (unseen : state.knows method = false) :
    ¬ PassedOver policy state method := by
  intro passedOver
  rw [passedOver.seen] at unseen
  exact Bool.false_ne_true unseen.symm

end PassedOver

/-- The methods of a list that are not dropped, each once. -/
def remaining (dropped : Symbol → Bool) (methods : List Symbol) : List Symbol :=
  (methods.filter (fun method => !dropped method)).eraseDupsBy Symbol.same

theorem remaining_none (methods : List Symbol) :
    remaining (fun _ => false) methods = methods.eraseDupsBy Symbol.same := by
  simp [remaining]

theorem remaining_callees (graph : CallGraph) (method : Symbol) :
    remaining (fun _ => false) (graph.callees method) = graph.dropRepeats.callees method := by
  rw [remaining_none, CallGraph.callees_dropRepeats]

theorem remaining_cons_of_dropped {dropped : Symbol → Bool} {method : Symbol}
    (gone : dropped method = true) (later : List Symbol) :
    remaining dropped (method :: later) = remaining dropped later := by
  rw [remaining, List.filter_cons_of_neg (by simp [gone]), remaining]

/-- A method that is kept is dropped from the rest of the list. -/
theorem remaining_cons_of_kept {dropped : Symbol → Bool} {method : Symbol}
    (kept : dropped method = false) (later : List Symbol) :
    remaining dropped (method :: later) =
      method :: remaining (fun other => dropped other || other.same method) later := by
  rw [remaining, List.filter_cons_of_pos (by simp [kept]), List.eraseDupsBy_cons,
    List.filter_filter, remaining]
  congr 3
  funext other
  cases dropped other with
  | false => simp
  | true => simp

/-- The methods of a list that are dropped are passed over. -/
def Droppable (policy : Policy) (state : State) (dropped : Symbol → Bool)
    (methods : List Symbol) : Prop :=
  ∀ method ∈ methods, dropped method = true → PassedOver policy state method

/-- Nothing needs to be said when nothing is dropped. -/
theorem droppable_none (policy : Policy) (state : State) (methods : List Symbol) :
    Droppable policy state (fun _ => false) methods :=
  fun _ _ gone => absurd gone Bool.false_ne_true

namespace Droppable

variable {state later : State} {dropped : Symbol → Bool} {method : Symbol} {methods : List Symbol}

theorem tail (droppable : Droppable policy state dropped (method :: methods)) :
    Droppable policy state dropped methods :=
  fun other member => droppable other (List.mem_cons_of_mem _ member)

/-- What is not passed over is not dropped. -/
theorem kept (droppable : Droppable policy state dropped (method :: methods))
    (needed : ¬ PassedOver policy state method) : dropped method = false := by
  apply Bool.eq_false_iff.mpr
  intro gone
  exact needed (droppable method List.mem_cons_self gone)

theorem of_keeps (droppable : Droppable policy state dropped methods) (keeps : Keeps state later) :
    Droppable policy later dropped methods :=
  fun other member gone => (droppable other member gone).of_keeps keeps

/-- A method that is itself passed over may be dropped from what follows it. -/
theorem grow (droppable : Droppable policy state dropped methods)
    (passedOver : PassedOver policy state method)
    (unique : ∀ other ∈ methods, other.index = method.index → other = method) :
    Droppable policy state (fun other => dropped other || other.same method) methods := by
  intro other member gone
  rcases Bool.or_eq_true_iff.mp gone with earlier | same
  · exact droppable other member earlier
  · rw [unique other member (Symbol.same_iff.mp same)]
    exact passedOver

end Droppable

/-! ## Searching without repetitions -/

/-- **Repetitions do not matter to a scan.** What scanning a list does, scanning it without the
methods that are passed over and without repetitions does in the graph without repetitions. -/
theorem Scans.dropRepeats (unambiguous : graph.Unambiguous) {methods : List Symbol}
    {state after : State} {found : Bool} (scans : Scans graph policy methods state found after)
    (wellFormed : state.WellFormed) (symbols : ∀ method ∈ methods, method ∈ graph.symbols)
    {dropped : Symbol → Bool} (droppable : Droppable policy state dropped methods) :
    Scans graph.dropRepeats policy (remaining dropped methods) state found after := by
  -- The methods scanned so far in the list are added to those that are dropped.
  induction scans generalizing dropped with
  | done => exact .done
  | @closed method later state closing =>
      rw [remaining_cons_of_kept (droppable.kept (not_passedOver_of_closes closing))]
      exact .closed closing
  | @known method later state after found notClosing seen _ ih =>
      have rest := fun other member => symbols other (List.mem_cons_of_mem method member)
      cases gone : dropped method with
      | true =>
          rw [remaining_cons_of_dropped gone]
          exact ih wellFormed rest droppable.tail
      | false =>
          rw [remaining_cons_of_kept gone]
          apply Scans.known notClosing seen
          apply ih wellFormed rest
          apply droppable.tail.grow ⟨notClosing, seen⟩
          intro other member
          exact unambiguous (rest other member) (symbols method List.mem_cons_self)
  | @unwound method later state inner notClosing unseen _ ih =>
      have below := ih (wellFormed.enter unseen) (fun _ => CallGraph.Calls.mem_symbols)
        (droppable_none policy _ _)
      rw [remaining_callees] at below
      rw [remaining_cons_of_kept (droppable.kept (not_passedOver_of_unseen unseen))]
      exact .unwound notClosing unseen below
  | @passed method later state inner after found notClosing unseen inside _ ih onward =>
      have rest := fun other member => symbols other (List.mem_cons_of_mem method member)
      have below := ih (wellFormed.enter unseen) (fun _ => CallGraph.Calls.mem_symbols)
        (droppable_none policy _ _)
      rw [remaining_callees] at below
      -- After the visit the trail is as before, and the method has been visited.
      have entered : Keeps (state.enter method) inner := inside.keeps (wellFormed.enter unseen)
      have keeps : Keeps state (inner.leave 1) := entered.leave wellFormed unseen
      have passedOver : PassedOver policy (inner.leave 1) method := by
        constructor
        · rw [keeps.closes_eq, notClosing]
        · exact State.knows_iff.mpr (entered.visited List.mem_cons_self)
      rw [remaining_cons_of_kept (droppable.kept (not_passedOver_of_unseen unseen))]
      apply Scans.passed notClosing unseen below
      apply onward (keeps.wellFormed wellFormed) rest
      apply (droppable.tail.of_keeps keeps).grow passedOver
      intro other member
      exact unambiguous (rest other member) (symbols method List.mem_cons_self)

/-- Searches from a method of the graph end in the same state. -/
theorem search_dropRepeats (unambiguous : graph.Unambiguous) {root : Symbol}
    (symbol : root ∈ graph.symbols) {state : State} (wellFormed : state.WellFormed) :
    search graph.dropRepeats policy root state = search graph policy root state := by
  have scans := (scans_search graph policy root state).dropRepeats unambiguous wellFormed
    (fun method member => List.mem_singleton.mp member ▸ symbol) (droppable_none policy _ _)
  rw [remaining_none] at scans
  exact scans.search_eq

/-- Runs over methods of the graph end in the same state. -/
theorem runFrom_dropRepeats (unambiguous : graph.Unambiguous) {roots : List Symbol}
    (symbols : ∀ root ∈ roots, root ∈ graph.symbols) {state : State} (empty : state.trail = {}) :
    runFrom graph.dropRepeats policy roots state = runFrom graph policy roots state := by
  induction roots generalizing state with
  | nil => rfl
  | cons root roots ih =>
      have later := fun other member => symbols other (List.mem_cons_of_mem root member)
      rw [runFrom_cons graph.dropRepeats policy root roots empty,
        runFrom_cons graph policy root roots empty,
        search_dropRepeats unambiguous (symbols root List.mem_cons_self)
          (State.wellFormed_of_trail_empty empty),
        ih later empty, ih later (search_trail_empty graph policy root empty)]

end Search

namespace CallGraph

open Search

/-- **Repetitions do not matter to the chains of a graph.** -/
theorem cycles_dropRepeats {graph : CallGraph} (unambiguous : graph.Unambiguous)
    (policy : Policy) : graph.dropRepeats.cycles policy = graph.cycles policy := by
  unfold cycles run
  rw [callers_dropRepeats, runFrom_dropRepeats unambiguous (fun _ => mem_symbols_of_caller) rfl]

/-- **Detection ignores repeated calls and leaves.** For a graph with symbols of one table and
any policy, the chains are those of the graph that names in each row only the callees with rows of
their own, and each of them once. -/
theorem cycles_ignore_repeats_and_leaves {table : SymbolTable} (reachable : table.Reachable)
    {graph : CallGraph} (fromTable : graph.Over table) (policy : Policy) :
    graph.condensed.cycles policy = graph.cycles policy := by
  have thinned : graph.dropLeaves.Over table :=
    fun symbol among => fromTable symbol (symbols_dropLeaves_subset graph among)
  calc graph.condensed.cycles policy
      = graph.dropLeaves.dropRepeats.cycles policy := by rw [condensed_eq]
    _ = graph.dropLeaves.cycles policy := cycles_dropRepeats (thinned.unambiguous reachable) policy
    _ = graph.cycles policy := cycles_dropLeaves graph policy

end CallGraph

namespace Sample

/-- Three methods that call each other repeatedly, and `retry`, which has no row. -/
def repetitive : CallGraph :=
  ⟨[(main, [retry, load, main, load]), (load, [main, parse, main, parse]),
    (parse, [retry, main, load, parse, load])], true⟩

theorem repetitive_over : repetitive.Over table := by
  unfold CallGraph.Over
  decide

end Sample

/-- With `main` ignored, the search comes to `main` three times while it is on the trail, and closes
no cycle there. -/
theorem CallGraph.cycles_ignore_repeats_and_leaves_sample :
    Sample.repetitive.Over Sample.table ∧
      Sample.repetitive.condensed.rows =
        [(Sample.main, [Sample.load, Sample.main]), (Sample.load, [Sample.main, Sample.parse]),
          (Sample.parse, [Sample.main, Sample.load, Sample.parse])] ∧
      Sample.repetitive.cycles ⟨"app", ["app.main"]⟩ = ["app.load -> app.parse -> app.load"] ∧
      Sample.repetitive.condensed.cycles ⟨"app", ["app.main"]⟩ =
        ["app.load -> app.parse -> app.load"] := by
  have chains : Sample.repetitive.cycles ⟨"app", ["app.main"]⟩ =
      ["app.load -> app.parse -> app.load"] := by
    decide +kernel
  refine ⟨Sample.repetitive_over, by decide, chains, ?_⟩
  rw [cycles_ignore_repeats_and_leaves Sample.table_reachable Sample.repetitive_over, chains]

end CyclicCalls
