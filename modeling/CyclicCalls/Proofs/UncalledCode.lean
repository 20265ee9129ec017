import CyclicCalls.Proofs.CleanVerdict
import CyclicCalls.Proofs.InducedGraph
/-!
# New code that nothing calls

Code that is added to a solution may call what was there before, share its leaves, and have
cycles of its own. As long as nothing that was there mentions the added methods, it cannot change
what is reported of the old code.

The records of the added methods come after the old ones, so their rows come after the old rows
(`rows_ofRecords_append`). A search from an old method meets old methods only, and these have the
callees that they had (`AppendedBy.callees_eq`); it goes the same way in both graphs
(`Scans.congr`). A run over the larger graph is therefore the run over the smaller one,
continued with the added callers as roots (`AppendedBy.run_eq`). The log of a run only grows, so the
old chains stand first, in their order. By then all old callers were visited, and a cycle is closed
only over methods that were not, so the chains that follow are those of cycles of added methods.

Main statement: `uncalled_code_only_appends`.
-/

set_option autoImplicit false

namespace CyclicCalls

namespace CallGraph

/-! ## Rows that come after the others -/

/-- Rows of methods that a graph does not mention come after its rows in a larger graph. -/
structure AppendedBy (graph larger : CallGraph) (added : List (Symbol × List Symbol)) : Prop where
  rows : larger.rows = graph.rows ++ added
  fresh : ∀ row ∈ added, ∀ symbol ∈ graph.symbols, row.1.index ≠ symbol.index

namespace AppendedBy

variable {graph larger : CallGraph} {added : List (Symbol × List Symbol)}

theorem callers (appended : graph.AppendedBy larger added) :
    larger.callers = graph.callers ++ added.map Prod.fst := by
  unfold CallGraph.callers
  rw [appended.rows, List.map_append]

/-- What the graph mentions has the same callees in the larger graph. -/
theorem callees_eq (appended : graph.AppendedBy larger added) {method : Symbol}
    (symbol : method ∈ graph.symbols) : larger.callees method = graph.callees method := by
  have absent : added.find? (fun row => row.1.same method) = none := by
    apply List.find?_eq_none.mpr
    intro row member same
    exact appended.fresh row member method symbol (Symbol.same_iff.mp same)
  unfold callees
  rw [appended.rows, List.find?_append, absent, Option.or_none]

end AppendedBy

end CallGraph

namespace Search

open CallGraph

/-! ## Runs in two parts -/

/-- A run over some roots and then over more is a run over all of them. -/
theorem runFrom_append (graph : CallGraph) (policy : Policy) (roots more : List Symbol)
    {state : State} (empty : state.trail = {}) :
    runFrom graph policy (roots ++ more) state =
      runFrom graph policy more (runFrom graph policy roots state).1 := by
  induction roots generalizing state with
  | nil => rfl
  | cons root roots ih =>
      rw [List.cons_append, runFrom_cons graph policy root (roots ++ more) empty,
        runFrom_cons graph policy root roots empty]
      cases state.knows root with
      | true => exact ih empty
      | false => exact ih (search_trail_empty graph policy root empty)

end Search

namespace CallGraph

open Search CallRecord

namespace AppendedBy

variable {graph larger : CallGraph} {added : List (Symbol × List Symbol)} {policy : Policy}

/-- **A run over the larger graph goes on where the run over the graph ended.** -/
theorem run_eq (appended : graph.AppendedBy larger added) (policy : Policy) :
    run larger policy {} =
      runFrom larger policy (added.map Prod.fst) (run graph policy {}).1 := by
  unfold run
  rw [appended.callers, runFrom_append larger policy _ _ rfl,
    runFrom_congr (fun _ => appended.callees_eq) (fun _ _ => rfl) fun _ => mem_symbols_of_caller]

theorem prefix_cycles (appended : graph.AppendedBy larger added) (policy : Policy) :
    graph.cycles policy <+: larger.cycles policy := by
  unfold cycles
  rw [appended.run_eq policy]
  exact (runFrom_keeps larger policy (added.map Prod.fst) (run_trail_empty graph policy rfl)).log

/-- **What follows the old chains are chains of added methods.** -/
theorem exists_added_cycle (appended : graph.AppendedBy larger added)
    (unambiguous : larger.Unambiguous) {chain : String} (reported : chain ∈ larger.cycles policy) :
    chain ∈ graph.cycles policy ∨
      ∃ first rest, chain = chainOf (first :: rest ++ [first]) ∧ larger.IsCycle first rest ∧
        ∀ method ∈ first :: rest, method ∈ added.map Prod.fst := by
  unfold cycles at reported
  rw [appended.run_eq policy] at reported
  -- All old callers are known from the first added root on.
  refine (runFrom_induction larger policy
    (motive := fun state => (∀ caller ∈ graph.callers, state.knows caller = true) ∧
      ∀ chain ∈ state.log.chains, chain ∈ graph.cycles policy ∨
        ∃ first rest, chain = chainOf (first :: rest ++ [first]) ∧ larger.IsCycle first rest ∧
          ∀ method ∈ first :: rest, method ∈ added.map Prod.fst)
    ?_ (run_trail_empty graph policy rfl)
    ⟨fun caller among => runFrom_visits graph policy rfl among, fun _ known => .inl known⟩).2 chain
    reported
  rintro root among state empty - ⟨known, earlier⟩
  have keeps := search_keeps larger policy root (State.wellFormed_of_trail_empty empty)
  refine ⟨fun caller member => State.knows_of_subset keeps.visited (known caller member), ?_⟩
  intro chain member
  cases outcome : (search larger policy root state).1 with
  | false =>
      rw [search_clear outcome] at member
      exact earlier chain member
  | true =>
      have caller : root ∈ larger.callers := by
        rw [appended.callers]
        exact List.mem_append_right _ among
      obtain ⟨first, rest, found⟩ :=
        search_found unambiguous (mem_symbols_of_caller caller) empty outcome
      rw [found.log] at member
      rcases ChainLog.mem_add.mp member with before | rfl
      · exact earlier chain before
      · refine .inr ⟨first, rest, rfl, found.cycle, ?_⟩
        intro method inside
        have listed := found.cycle.mem_callers unambiguous inside
        rw [appended.callers] at listed
        rcases List.mem_append.mp listed with old | new
        · have unseen := found.fresh method inside
          rw [known method old] at unseen
          exact absurd unseen.symm Bool.false_ne_true
        · exact new

end AppendedBy

/-! ## Records that come after the others -/

/-- A caller without a row among the first ones gets one among the others. -/
theorem extendRows_append {caller : Symbol} {callees : List Symbol}
    {front back : List (Symbol × List Symbol)}
    (absent : ∀ row ∈ front, row.1.index ≠ caller.index) :
    extendRows caller callees (front ++ back) = front ++ extendRows caller callees back := by
  induction front with
  | nil => rfl
  | cons row front ih =>
      obtain ⟨first, known⟩ := row
      have other : ¬ first.same caller = true := fun same =>
        absent (first, known) List.mem_cons_self (Symbol.same_iff.mp same)
      rw [List.cons_append, extendRows, if_neg other,
        ih fun row member => absent row (List.mem_cons_of_mem _ member), List.cons_append]

theorem rows_foldl_addRecord_append (policy : Policy) {records : List CallRecord}
    {front : List (Symbol × List Symbol)}
    (absent : ∀ record ∈ records, ∀ row ∈ front, row.1.index ≠ record.caller.index)
    {graph part : CallGraph} (start : graph.rows = front ++ part.rows) :
    (records.foldl (addRecord policy) graph).rows =
      front ++ (records.foldl (addRecord policy) part).rows := by
  induction records generalizing graph part with
  | nil => exact start
  | cons record records ih =>
      rw [List.foldl_cons, List.foldl_cons]
      apply ih fun later member => absent later (List.mem_cons_of_mem record member)
      unfold addRecord
      split
      · exact start
      · show extendRows _ _ graph.rows = front ++ extendRows _ _ part.rows
        rw [start, extendRows_append (absent record List.mem_cons_self)]

/-- **The rows of added methods come after the old rows.** -/
theorem rows_ofRecords_append {old new : List CallRecord} {policy : Policy}
    (absent : ∀ record ∈ new, ∀ caller ∈ (ofRecords old policy).callers,
      caller.index ≠ record.caller.index) :
    (ofRecords (old ++ new) policy).rows =
      (ofRecords old policy).rows ++ (ofRecords new policy).rows := by
  unfold ofRecords
  rw [List.foldl_append]
  refine rows_foldl_addRecord_append policy ?_ (List.append_nil _).symm
  intro record member row listed
  exact absent record member row.1 (List.mem_map_of_mem listed)

/-- Records whose callers the old ones do not mention add rows at the end. -/
theorem appendedBy_ofRecords {table : SymbolTable} (reachable : table.Reachable)
    {old new : List CallRecord} (fromTable : AllOver (old ++ new) table) (policy : Policy)
    (uncalled : ∀ added ∈ new, ∀ record ∈ old, added.caller ∉ record.symbols) :
    (ofRecords old policy).AppendedBy (ofRecords (old ++ new) policy)
      (ofRecords new policy).rows := by
  have apart : ∀ added ∈ new, ∀ symbol ∈ (ofRecords old policy).symbols,
      symbol.index ≠ added.caller.index := by
    intro added member symbol among same
    obtain ⟨record, listed, mentioned⟩ := exists_record_of_mem_symbols among
    have equal : symbol = added.caller := by
      apply reachable.eq_of_index _ _ same
      · exact fromTable record (List.mem_append_left new listed) symbol mentioned
      · exact fromTable added (List.mem_append_right old member) _ List.mem_cons_self
    exact uncalled added member record listed (equal ▸ mentioned)
  constructor
  · apply rows_ofRecords_append
    intro added member caller among
    exact apart added member caller (mem_symbols_of_caller among)
  · intro row listed symbol among same
    obtain ⟨added, member, equal, _⟩ := exists_record_of_mem_callers (List.mem_map_of_mem listed)
    rw [← equal] at same
    exact apart added member symbol among same.symm

/-- **New code that nothing calls only appends to the report.** For records with symbols of one
table and any policy, when no caller of the new records is a caller or a target of an old one, the
chains of the old records begin the chains of all records. Each chain that is not among them is
that of a cycle of callers of new records. -/
theorem uncalled_code_only_appends {table : SymbolTable} (reachable : table.Reachable)
    {old new : List CallRecord} (fromTable : AllOver (old ++ new) table) (policy : Policy)
    (uncalled : ∀ added ∈ new, ∀ record ∈ old, added.caller ∉ record.symbols) :
    (ofRecords old policy).cycles policy <+: (ofRecords (old ++ new) policy).cycles policy ∧
    ∀ chain ∈ (ofRecords (old ++ new) policy).cycles policy,
      chain ∈ (ofRecords old policy).cycles policy ∨
        ∃ first rest, chain = chainOf (first :: rest ++ [first]) ∧
          (ofRecords (old ++ new) policy).IsCycle first rest ∧
          ∀ method ∈ first :: rest, method ∈ new.map CallRecord.caller := by
  have appended := appendedBy_ofRecords reachable fromTable policy uncalled
  refine ⟨appended.prefix_cycles policy, ?_⟩
  intro chain reported
  have unambiguous := (ofRecords_over fromTable policy).unambiguous reachable
  rcases appended.exists_added_cycle unambiguous reported with
    old | ⟨first, rest, named, cycle, own⟩
  · exact .inl old
  · refine .inr ⟨first, rest, named, cycle, ?_⟩
    intro method inside
    obtain ⟨added, member, equal, _⟩ := exists_record_of_mem_callers (own method inside)
    exact List.mem_map.mpr ⟨added, member, equal⟩

end CallGraph

namespace Sample

/-- Two methods that call each other. -/
def former : List CallRecord :=
  [⟨load, [some parse]⟩, ⟨parse, [none, some load]⟩]

/-- Two methods that call the former ones and themselves. -/
def latter : List CallRecord :=
  [⟨main, [some load, some main]⟩, ⟨retry, [some parse, some main, some retry]⟩]

theorem former_latter_over : CallRecord.AllOver (former ++ latter) table := by
  unfold CallRecord.AllOver
  decide

end Sample

/-- The chains of `main` and of `retry` follow the chain that was there. -/
theorem CallGraph.uncalled_code_only_appends_sample :
    CallRecord.AllOver (Sample.former ++ Sample.latter) Sample.table ∧
      (∀ added ∈ Sample.latter, ∀ record ∈ Sample.former, added.caller ∉ record.symbols) ∧
      ["app.load -> app.parse -> app.load"] <+:
        (CallGraph.ofRecords (Sample.former ++ Sample.latter) ⟨"app", []⟩).cycles ⟨"app", []⟩ ∧
      (CallGraph.ofRecords (Sample.former ++ Sample.latter) ⟨"app", []⟩).cycles ⟨"app", []⟩ =
        ["app.load -> app.parse -> app.load", "app.main -> app.main",
          "app.retry -> app.retry"] := by
  have uncalled : ∀ added ∈ Sample.latter, ∀ record ∈ Sample.former,
      added.caller ∉ record.symbols := by
    decide
  have old : (CallGraph.ofRecords Sample.former ⟨"app", []⟩).cycles ⟨"app", []⟩ =
      ["app.load -> app.parse -> app.load"] := by
    decide +kernel
  have begins := (uncalled_code_only_appends Sample.table_reachable Sample.former_latter_over
    ⟨"app", []⟩ uncalled).1
  rw [old] at begins
  exact ⟨Sample.former_latter_over, uncalled, begins, by decide +kernel⟩

end CyclicCalls
