import CyclicCalls.Proofs.GuardedAnalysis
import CyclicCalls.Proofs.InducedGraph
import CyclicCalls.Proofs.InternedSymbols
/-!
# A graph groups the calls of its records

Records come in any order: a method may be declared several times with other declarations in
between, and be called before it is declared. The graph made from them has one row for each
declared method that the policy does not ignore. The rows stand in the order of first
declaration (`callers_ofRecords`), and a row holds the targets of all records of its method in
the order of the records (`callees_ofRecords_of_mem`). Nothing is left out and nothing is counted
twice: the calls of the graph are as many as the targets of the records that are regarded
(`callCount_ofRecords`).

A row is found by the number of a method. No two rows have the same number (`Distinct`), so each
row is the one that is found for its caller, and reading the graph row by row is reading it
caller by caller (`Distinct.calls_eq`).

Main statement: `ofRecords_groups_targets`.
-/

set_option autoImplicit false

namespace CyclicCalls

namespace CallRecord

/-- The targets that are known, in the order of the calls. -/
def knownTargets (record : CallRecord) : List Symbol :=
  record.targets.filterMap id

/-- The records whose callers the policy does not ignore. -/
def regarded (records : List CallRecord) (policy : Policy) : List CallRecord :=
  records.filter (fun record => !policy.ignores record.caller)

theorem regarded_concat (records : List CallRecord) (record : CallRecord) (policy : Policy) :
    regarded (records ++ [record]) policy =
      if policy.ignores record.caller then regarded records policy
      else regarded records policy ++ [record] := by
  rw [regarded, List.filter_append, ← regarded]
  cases ignored : policy.ignores record.caller with
  | true => simp [ignored]
  | false => simp [ignored]

theorem AllOver.of_append {earlier later : List CallRecord} {table : SymbolTable}
    (fromTable : AllOver (earlier ++ later) table) : AllOver earlier table :=
  fun record member => fromTable record (List.mem_append_left later member)

end CallRecord

namespace CallGraph

open CallRecord

variable {graph : CallGraph}

/-- The last record is taken in by one step. -/
theorem ofRecords_concat (records : List CallRecord) (record : CallRecord) (policy : Policy) :
    ofRecords (records ++ [record]) policy =
      addRecord policy (ofRecords records policy) record := by
  simp only [ofRecords, List.foldl_append, List.foldl_cons, List.foldl_nil, addRecord]
  split
  · rfl
  · rfl

/-! ## One row for each number -/

/-- No two rows have the same number. -/
def Distinct (graph : CallGraph) : Prop :=
  (graph.callers.map Symbol.index).Nodup

theorem Distinct.extend (distinct : graph.Distinct) (caller : Symbol) (callees : List Symbol) :
    (graph.extend caller callees).Distinct := by
  unfold Distinct
  rw [callers_extend]
  split
  · exact distinct
  · rename_i absent
    rw [List.map_append, List.map_singleton, ← List.concat_eq_append]
    apply List.Nodup.concat _ distinct
    intro among
    obtain ⟨known, member, same⟩ := List.mem_map.mp among
    exact absent (hasCaller_iff.mpr ⟨known, member, same⟩)

theorem distinct_ofRecords (records : List CallRecord) (policy : Policy) :
    (ofRecords records policy).Distinct := by
  induction records using List.reverseRecOn with
  | nil => exact List.nodup_nil
  | append_singleton records record ih =>
      rw [ofRecords_concat, addRecord]
      split
      · exact ih
      · exact ih.extend record.caller _

/-- Each row is the one that is found for its caller. -/
theorem Distinct.callees_eq (distinct : graph.Distinct) {row : Symbol × List Symbol}
    (member : row ∈ graph.rows) : graph.callees row.1 = row.2 := by
  unfold Distinct callers at distinct
  unfold callees
  generalize graph.rows = rows at distinct member
  induction rows with
  | nil => exact nomatch member
  | cons first rows ih =>
      simp only [List.map_cons, List.nodup_cons] at distinct
      rcases List.mem_cons.mp member with rfl | later
      · simp [Symbol.same]
      · have other : ¬ first.1.same row.1 = true := by
          intro same
          apply distinct.1
          rw [Symbol.same_iff.mp same]
          exact List.mem_map_of_mem (List.mem_map_of_mem later)
        simp only [List.find?_cons, Bool.eq_false_iff.mpr other]
        exact ih distinct.2 later

/-- The calls row by row are the calls caller by caller. -/
theorem Distinct.calls_eq (distinct : graph.Distinct) :
    graph.calls =
      graph.callers.flatMap (fun caller => (graph.callees caller).map (fun callee =>
        (caller, callee))) := by
  unfold calls callers
  rw [List.flatMap_map]
  apply List.flatMap_congr
  intro row member
  rw [distinct.callees_eq member]

/-! ## The number of calls -/

theorem callCount_extend (graph : CallGraph) (caller : Symbol) (callees : List Symbol) :
    (graph.extend caller callees).callCount = graph.callCount + callees.length := by
  unfold extend callCount
  generalize graph.rows = rows
  induction rows with
  | nil => simp [extendRows]
  | cons row rows ih =>
      obtain ⟨first, known⟩ := row
      by_cases own : first.same caller = true
      · simp only [extendRows, own, if_true, List.foldr_cons, List.length_append]
        omega
      · simp only [extendRows, own, Bool.false_eq_true, if_false, List.foldr_cons, ih]
        omega

/-- **No call is left out or counted twice.** -/
theorem callCount_ofRecords (records : List CallRecord) (policy : Policy) :
    (ofRecords records policy).callCount =
      ((regarded records policy).flatMap knownTargets).length := by
  induction records using List.reverseRecOn with
  | nil => rfl
  | append_singleton records record ih =>
      rw [ofRecords_concat, addRecord, regarded_concat]
      split
      · exact ih
      · rw [callCount_extend, ih, List.flatMap_append, List.length_append,
          List.flatMap_singleton]
        rfl

/-! ## Callers and their callees -/

section OneTable

variable {table : SymbolTable} (reachable : table.Reachable) {records : List CallRecord}
  (fromTable : AllOver records table) (policy : Policy)

include reachable fromTable

/-- With symbols of one table, a method has a row when it is a caller. -/
theorem hasCaller_ofRecords_iff {method : Symbol} (symbol : method ∈ table.symbols) :
    (ofRecords records policy).hasCaller method = true ↔
      method ∈ (ofRecords records policy).callers := by
  rw [hasCaller_iff]
  constructor
  · rintro ⟨caller, member, same⟩
    have known := ofRecords_over fromTable policy caller (mem_symbols_of_caller member)
    rw [← reachable.eq_of_index known symbol same]
    exact member
  · intro member
    exact ⟨method, member, rfl⟩

/-- **The callers are the declared methods that are regarded**, in the order of first
declaration. -/
theorem callers_ofRecords :
    (ofRecords records policy).callers =
      ((regarded records policy).map (·.caller)).eraseDups := by
  induction records using List.reverseRecOn with
  | nil => rfl
  | append_singleton records record ih =>
      have earlier : AllOver records table := fromTable.of_append
      have symbol : record.caller ∈ table.symbols :=
        fromTable record (by simp) _ List.mem_cons_self
      have known := hasCaller_ofRecords_iff reachable earlier policy symbol
      rw [ih earlier, List.mem_eraseDups] at known
      rw [ofRecords_concat, addRecord, regarded_concat]
      cases policy.ignores record.caller with
      | true => exact ih earlier
      | false =>
          rw [if_neg Bool.false_ne_true, if_neg Bool.false_ne_true, callers_extend, ih earlier,
            List.map_append, List.map_singleton]
          by_cases declared : record.caller ∈ (regarded records policy).map (·.caller)
          · rw [if_pos (known.mpr declared), eraseDups_concat_of_mem declared]
          · rw [if_neg (fun has => declared (known.mp has)), eraseDups_concat_of_notMem declared]

/-- **A row holds the targets of all records of its caller**, in the order of the records. -/
theorem callees_ofRecords_of_mem {caller : Symbol}
    (member : caller ∈ (ofRecords records policy).callers) :
    (ofRecords records policy).callees caller =
      (records.filter (fun record => record.caller = caller)).flatMap knownTargets := by
  have known : caller ∈ table.symbols :=
    ofRecords_over fromTable policy caller (mem_symbols_of_caller member)
  have notIgnored := not_ignored_of_mem_callers_ofRecords member
  rw [callees_ofRecords, targetsOf]
  have kept : records.filter (fun record =>
        record.caller.same caller && !policy.ignores record.caller) =
      records.filter (fun record => record.caller = caller) := by
    apply List.filter_congr
    intro record listed
    have symbol : record.caller ∈ table.symbols :=
      fromTable record listed _ List.mem_cons_self
    by_cases own : record.caller = caller
    · simp [own, notIgnored, Symbol.same]
    · have other : record.caller.same caller = false := by
        apply Bool.eq_false_iff.mpr
        intro same
        exact own (reachable.eq_of_index symbol known (Symbol.same_iff.mp same))
      simp [own, other]
  rw [kept]
  rfl

/-- A method that is no caller has no callees. -/
theorem callees_ofRecords_of_notMem {method : Symbol} (symbol : method ∈ table.symbols)
    (absent : method ∉ (ofRecords records policy).callers) :
    (ofRecords records policy).callees method = [] := by
  apply callees_of_leaf
  intro leaf
  exact absent ((hasCaller_ofRecords_iff reachable fromTable policy symbol).mp leaf)

end OneTable

/-- **A graph groups the targets of its records.** For records with symbols of one table and any
policy, taking in callers and calls one by one is never refused, and gives the frozen graph with
these contents. Its callers are the declared methods that the policy does not ignore, in the order
of first declaration. The callees of a caller are the known targets of all its records, in the
order of the records and with repetitions, also those that are ignored. Any other method has no
callees. The calls are those of the callers one after the other, and there are as many of them as
known targets in the records of methods that are not ignored. -/
theorem ofRecords_groups_targets {table : SymbolTable} (reachable : table.Reachable)
    {records : List CallRecord} (fromTable : AllOver records table) (policy : Policy) :
    guardedOfRecords records policy = .ok (ofRecords records policy) ∧
    (ofRecords records policy).frozen = true ∧
    (ofRecords records policy).callers = ((regarded records policy).map (·.caller)).eraseDups ∧
    (∀ caller ∈ (ofRecords records policy).callers,
      (ofRecords records policy).callees caller =
        (records.filter (fun record => record.caller = caller)).flatMap knownTargets) ∧
    (∀ method ∈ table.symbols, method ∉ (ofRecords records policy).callers →
      (ofRecords records policy).callees method = []) ∧
    (ofRecords records policy).calls =
      (ofRecords records policy).callers.flatMap (fun caller =>
        ((ofRecords records policy).callees caller).map (fun callee => (caller, callee))) ∧
    (ofRecords records policy).callCount =
      ((regarded records policy).flatMap knownTargets).length :=
  ⟨guardedOfRecords_eq records policy, rfl, callers_ofRecords reachable fromTable policy,
    fun _ => callees_ofRecords_of_mem reachable fromTable policy,
    fun _ => callees_ofRecords_of_notMem reachable fromTable policy,
    (distinct_ofRecords records policy).calls_eq, callCount_ofRecords records policy⟩

end CallGraph

namespace Sample

/-- `load` is declared before and after `main`, which calls it twice; `parse` is called before it
is declared, and `retry` is declared in between. -/
def interleaved : List CallRecord :=
  [⟨load, [some parse, none]⟩, ⟨main, [some load, none, some load]⟩, ⟨retry, [some main]⟩,
    ⟨load, [some retry, some parse]⟩, ⟨parse, []⟩]

theorem interleaved_over : CallRecord.AllOver interleaved table := by
  unfold CallRecord.AllOver
  decide

end Sample

/-- With `retry` ignored, its row is missing and the call of it stays. -/
theorem CallGraph.ofRecords_groups_targets_interleaved :
    CallRecord.AllOver Sample.interleaved Sample.table ∧
      (CallGraph.ofRecords Sample.interleaved ⟨"app", ["app.retry"]⟩).callers =
        [Sample.load, Sample.main, Sample.parse] ∧
      (CallGraph.ofRecords Sample.interleaved ⟨"app", ["app.retry"]⟩).callees Sample.load =
        [Sample.parse, Sample.retry, Sample.parse] ∧
      (CallGraph.ofRecords Sample.interleaved ⟨"app", ["app.retry"]⟩).callees Sample.retry = [] ∧
      (CallGraph.ofRecords Sample.interleaved ⟨"app", ["app.retry"]⟩).callCount = 5 := by
  obtain ⟨-, -, callers, callees, others, -, count⟩ :=
    ofRecords_groups_targets Sample.table_reachable Sample.interleaved_over
      ⟨"app", ["app.retry"]⟩
  have listed : (CallGraph.ofRecords Sample.interleaved ⟨"app", ["app.retry"]⟩).callers =
      [Sample.load, Sample.main, Sample.parse] :=
    callers.trans (by decide)
  refine ⟨Sample.interleaved_over, listed, ?_, ?_, count.trans (by decide)⟩
  · rw [callees Sample.load (by rw [listed]; exact List.mem_cons_self)]
    decide
  · apply others Sample.retry (by decide)
    rw [listed]
    decide

end CyclicCalls
