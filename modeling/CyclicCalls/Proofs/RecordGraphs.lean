import CyclicCalls.Proofs.CallCycles
/-!
# Graphs made from records

A graph made from records has a row for each caller that the policy lets through, and
the row holds the targets of all records of that caller, one after the other
(`callees_ofRecords`). So a call of the graph is a target of a record
(`calls_ofRecords_iff`), and every symbol of the graph is one that a record mentions.

When all symbols of the records were handed out by one table, ignoring a caller while the
graph is made is the same as taking its row out afterwards (`rows_ofRecords`).
-/

set_option autoImplicit false

namespace CyclicCalls

namespace CallRecord

/-- The methods that a record mentions: its caller and the targets that are known. -/
def symbols (record : CallRecord) : List Symbol :=
  record.caller :: record.targets.filterMap id

/-- Every method that the records mention was handed out by the table. -/
def AllOver (records : List CallRecord) (table : SymbolTable) : Prop :=
  ∀ record ∈ records, ∀ symbol ∈ record.symbols, symbol ∈ table.symbols

end CallRecord

theorem Symbol.same_iff {first second : Symbol} :
    first.same second = true ↔ first.index = second.index :=
  beq_iff_eq

/-- A policy lets through the methods of its scope whose names it does not list. -/
theorem Policy.ignores_eq_false {policy : Policy} {method : Symbol} :
    policy.ignores method = false ↔
      Text.startsWith policy.scope method.key.moduleName = true ∧
        method.qualifiedName ∉ policy.ignored := by
  simp [Policy.ignores]

/-- The policy without scope and names ignores nothing. -/
@[simp] theorem Policy.ignores_default (method : Symbol) :
    ({} : Policy).ignores method = false := by
  simp [Policy.ignores, Text.startsWith]

namespace CallGraph

/-! ## Extending a graph -/

theorem callees_extend (graph : CallGraph) (caller : Symbol) (callees : List Symbol)
    (method : Symbol) :
    (graph.extend caller callees).callees method =
      graph.callees method ++ if caller.same method then callees else [] := by
  unfold extend CallGraph.callees
  generalize graph.rows = rows
  induction rows with
  | nil =>
      simp only [extendRows, List.find?_cons, List.find?_nil]
      cases caller.same method with
      | true => rfl
      | false => rfl
  | cons row rows ih =>
      obtain ⟨first, known⟩ := row
      by_cases own : first.same caller = true
      · have alike : first.same method = caller.same method := by
          simp only [Symbol.same, Symbol.same_iff.mp own]
        simp only [extendRows, own, if_true, List.find?_cons, alike]
        cases caller.same method with
        | true => rfl
        | false => simp
      · simp only [extendRows, own, Bool.false_eq_true, if_false, List.find?_cons]
        cases here : first.same method with
        | false => exact ih
        | true =>
            have other : ¬ caller.same method = true := by
              intro same
              have index := (Symbol.same_iff.mp here).trans (Symbol.same_iff.mp same).symm
              exact own (Symbol.same_iff.mpr index)
            simp [other]

/-- Extending a graph makes a row for the caller at the end, unless it has one. -/
theorem callers_extend (graph : CallGraph) (caller : Symbol) (callees : List Symbol) :
    (graph.extend caller callees).callers =
      if graph.hasCaller caller then graph.callers else graph.callers ++ [caller] := by
  unfold extend callers hasCaller
  generalize graph.rows = rows
  induction rows with
  | nil => rfl
  | cons row rows ih =>
      obtain ⟨first, known⟩ := row
      by_cases own : first.same caller = true
      · simp [extendRows, own]
      · simp only [extendRows, own, Bool.false_eq_true, if_false, List.map_cons, ih, List.any_cons,
          Bool.false_or, List.cons_append]
        split <;> rfl

/-- Extending a graph brings in the caller and the callees. -/
theorem mem_symbols_extend {graph : CallGraph} {caller symbol : Symbol} {callees : List Symbol}
    (among : symbol ∈ (graph.extend caller callees).symbols) :
    symbol ∈ caller :: callees ∨ symbol ∈ graph.symbols := by
  unfold extend symbols at among
  unfold symbols
  generalize graph.rows = rows at among ⊢
  induction rows with
  | nil => exact .inl (by simpa [extendRows] using among)
  | cons row rows ih =>
      obtain ⟨first, known⟩ := row
      rw [List.flatMap_cons, List.mem_append]
      by_cases own : first.same caller = true
      · simp only [extendRows, own, if_true, List.flatMap_cons, ← List.cons_append,
          List.append_assoc, List.mem_append] at among
        rcases among with here | added | later
        · exact .inr (.inl here)
        · exact .inl (List.mem_cons_of_mem _ added)
        · exact .inr (.inr later)
      · simp only [extendRows, own, Bool.false_eq_true, if_false, List.flatMap_cons,
          List.mem_append] at among
        rcases among with here | later
        · exact .inr (.inl here)
        · exact (ih later).imp_right .inr

/-- Taking out the rows of ignored callers, before or after a graph is extended. -/
theorem filter_extendRows {policy : Policy} {caller : Symbol} {callees : List Symbol}
    {rows : List (Symbol × List Symbol)}
    (unique : ∀ row ∈ rows, row.1.index = caller.index → row.1 = caller) :
    (extendRows caller callees rows).filter (fun row => !policy.ignores row.1) =
      if policy.ignores caller then rows.filter (fun row => !policy.ignores row.1)
      else extendRows caller callees (rows.filter (fun row => !policy.ignores row.1)) := by
  induction rows with
  | nil => cases ignored : policy.ignores caller <;> simp [extendRows, ignored]
  | cons row rows ih =>
      obtain ⟨first, known⟩ := row
      have later := ih fun row member => unique row (List.mem_cons_of_mem _ member)
      by_cases own : first.same caller = true
      · have equal : first = caller := unique _ List.mem_cons_self (Symbol.same_iff.mp own)
        subst equal
        cases ignored : policy.ignores first <;> simp [extendRows, own, ignored]
      · simp only [extendRows, own, Bool.false_eq_true, if_false, List.filter_cons, later]
        cases policy.ignores first <;> cases policy.ignores caller <;> simp [extendRows, own]

/-! ## The graph of some records -/

/-- The targets of the records of a method that the policy does not ignore. -/
def targetsOf (records : List CallRecord) (policy : Policy) (method : Symbol) : List Symbol :=
  (records.filter
    (fun record => record.caller.same method && !policy.ignores record.caller)).flatMap
    (fun record => record.targets.filterMap id)

theorem targetsOf_cons (record : CallRecord) (records : List CallRecord) (policy : Policy)
    (method : Symbol) :
    targetsOf (record :: records) policy method =
      (if record.caller.same method && !policy.ignores record.caller then
        record.targets.filterMap id else []) ++ targetsOf records policy method := by
  unfold targetsOf
  rw [List.filter_cons]
  split
  · rw [List.flatMap_cons]
  · rfl

/-- One record adds its targets to the callees of its caller. -/
theorem callees_addRecord (policy : Policy) (graph : CallGraph) (record : CallRecord)
    (method : Symbol) :
    (addRecord policy graph record).callees method =
      graph.callees method ++ if record.caller.same method && !policy.ignores record.caller then
        record.targets.filterMap id else [] := by
  unfold addRecord
  cases policy.ignores record.caller with
  | true => simp
  | false => simp [callees_extend]

theorem callees_foldl_addRecord (records : List CallRecord) (policy : Policy) (graph : CallGraph)
    (method : Symbol) :
    (records.foldl (addRecord policy) graph).callees method =
      graph.callees method ++ targetsOf records policy method := by
  induction records generalizing graph with
  | nil => simp [targetsOf]
  | cons record records ih =>
      rw [List.foldl_cons, ih, callees_addRecord, targetsOf_cons, List.append_assoc]

/-- **The callees of a method are the targets of its records**, in the order of the
records. -/
theorem callees_ofRecords (records : List CallRecord) (policy : Policy) (method : Symbol) :
    (ofRecords records policy).callees method = targetsOf records policy method :=
  callees_foldl_addRecord records policy {} method

/-- A call of the graph is a target of a record of the caller. -/
theorem calls_ofRecords_iff {records : List CallRecord} {policy : Policy} {caller callee : Symbol} :
    (ofRecords records policy).Calls caller callee ↔
      ∃ record ∈ records, record.caller.index = caller.index ∧
        policy.ignores record.caller = false ∧ some callee ∈ record.targets := by
  rw [Calls, callees_ofRecords, targetsOf, List.mem_flatMap]
  constructor
  · rintro ⟨record, kept, target⟩
    obtain ⟨member, accepted⟩ := List.mem_filter.mp kept
    simp only [Bool.and_eq_true, Bool.not_eq_true'] at accepted
    exact ⟨record, member, Symbol.same_iff.mp accepted.1, accepted.2, by simpa using target⟩
  · rintro ⟨record, member, same, regarded, target⟩
    refine ⟨record, List.mem_filter.mpr ⟨member, ?_⟩, by simpa using target⟩
    simp [Symbol.same_iff.mpr same, regarded]

/-- A caller keeps its row while records are taken in. -/
theorem mem_callers_foldl_addRecord {records : List CallRecord} {policy : Policy}
    {graph : CallGraph} {caller : Symbol} (among : caller ∈ graph.callers) :
    caller ∈ (records.foldl (addRecord policy) graph).callers := by
  refine List.foldlRecOn (motive := fun graph : CallGraph => caller ∈ graph.callers)
    records (addRecord policy) among fun graph known record _ => ?_
  unfold addRecord
  split
  · exact known
  · rw [callers_extend]
    split
    · exact known
    · exact List.mem_append_left _ known

/-- The caller of a record has a row, unless the policy ignores it. -/
theorem exists_caller_ofRecords {records : List CallRecord} {policy : Policy} {record : CallRecord}
    (member : record ∈ records) (regarded : policy.ignores record.caller = false) :
    ∃ caller ∈ (ofRecords records policy).callers, caller.index = record.caller.index := by
  obtain ⟨earlier, later, rfl⟩ := List.append_of_mem member
  have taken (graph : CallGraph) :
      ∃ caller ∈ (addRecord policy graph record).callers, caller.index = record.caller.index := by
    rw [addRecord, if_neg (by simp [regarded]), callers_extend]
    split
    · rename_i has
      obtain ⟨row, listed, same⟩ := List.any_eq_true.mp has
      exact ⟨row.1, List.mem_map_of_mem listed, Symbol.same_iff.mp same⟩
    · exact ⟨record.caller, List.mem_append_right _ (List.mem_singleton_self _), rfl⟩
  obtain ⟨caller, known, same⟩ := taken (earlier.foldl (addRecord policy) {})
  refine ⟨caller, ?_, same⟩
  show caller ∈ ((earlier ++ record :: later).foldl (addRecord policy) {}).callers
  rw [List.foldl_append, List.foldl_cons]
  exact mem_callers_foldl_addRecord known

/-- Every symbol of the graph is mentioned by a record. -/
theorem exists_record_of_mem_symbols {records : List CallRecord} {policy : Policy}
    {symbol : Symbol} (among : symbol ∈ (ofRecords records policy).symbols) :
    ∃ record ∈ records, symbol ∈ record.symbols := by
  have start : ∀ symbol ∈ ({} : CallGraph).symbols, ∃ record ∈ records, symbol ∈ record.symbols :=
    fun _ member => nomatch member
  refine List.foldlRecOn
    (motive := fun graph : CallGraph =>
      ∀ symbol ∈ graph.symbols, ∃ record ∈ records, symbol ∈ record.symbols)
    records (addRecord policy) start ?_ symbol among
  intro graph earlier record member symbol mentioned
  unfold addRecord at mentioned
  cases ignored : policy.ignores record.caller with
  | true =>
      rw [if_pos ignored] at mentioned
      exact earlier symbol mentioned
  | false =>
      rw [if_neg (by simp [ignored])] at mentioned
      rcases mem_symbols_extend mentioned with here | known
      · exact ⟨record, member, here⟩
      · exact earlier symbol known

theorem ofRecords_over {records : List CallRecord} {table : SymbolTable}
    (fromTable : CallRecord.AllOver records table) (policy : Policy) :
    (ofRecords records policy).Over table := by
  intro symbol among
  obtain ⟨record, member, mentioned⟩ := exists_record_of_mem_symbols among
  exact fromTable record member symbol mentioned

/-! ## Ignoring callers -/

theorem rows_foldl_addRecord {table : SymbolTable} (reachable : table.Reachable)
    {records : List CallRecord} (fromTable : CallRecord.AllOver records table) (policy : Policy)
    {full part : CallGraph} (callers : ∀ caller ∈ full.callers, caller ∈ table.symbols)
    (start : part.rows = full.rows.filter (fun row => !policy.ignores row.1)) :
    (records.foldl (addRecord policy) part).rows =
      (records.foldl (addRecord {}) full).rows.filter (fun row => !policy.ignores row.1) := by
  induction records generalizing full part with
  | nil => exact start
  | cons record records ih =>
      have symbol : record.caller ∈ table.symbols :=
        fromTable record List.mem_cons_self _ List.mem_cons_self
      have added : addRecord {} full record =
          full.extend record.caller (record.targets.filterMap id) := by
        simp [addRecord]
      refine ih (fun record member => fromTable record (List.mem_cons_of_mem _ member)) ?_ ?_
      · intro caller among
        rw [added] at among
        rcases mem_callers_extend among with rfl | known
        · exact symbol
        · exact callers caller known
      · rw [added]
        show _ = (extendRows _ _ full.rows).filter _
        rw [filter_extendRows fun row member =>
          reachable.eq_of_index (callers _ (List.mem_map_of_mem member)) symbol]
        unfold addRecord
        split
        · exact start
        · show extendRows _ _ part.rows = _
          rw [start]

/-- **Ignoring callers takes their rows out.** -/
theorem rows_ofRecords {table : SymbolTable} (reachable : table.Reachable)
    {records : List CallRecord} (fromTable : CallRecord.AllOver records table) (policy : Policy) :
    (ofRecords records policy).rows =
      (ofRecords records {}).rows.filter (fun row => !policy.ignores row.1) :=
  rows_foldl_addRecord reachable fromTable policy (fun _ member => nomatch member) rfl

end CallGraph

end CyclicCalls
