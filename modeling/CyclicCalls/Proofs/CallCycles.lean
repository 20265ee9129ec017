import CyclicCalls.CallGraph
import Mathlib.Data.List.Chain
/-!
# Cycles of a call graph

A symbol is known by its number alone, so a graph may mention two symbols that
count as one node and still differ in their keys. This cannot happen when all
symbols of the graph were handed out by one table (`CallGraph.Over`): a table gives
each number once (`SymbolTable.Reachable.eq_of_index`), and the graph is
*unambiguous*.

A cycle is a list of distinct methods each of which calls the next, the last one
calling the first (`CallGraph.IsCycle`). Every method of a cycle is a caller, and the
callers of a graph made from records are not ignored by the policy it was made with.
-/

set_option autoImplicit false

namespace CyclicCalls

/-! ## Tables made by interning -/

namespace SymbolTable

/-- The tables that interning makes out of the empty one. -/
inductive Reachable : SymbolTable → Prop where
  | empty : Reachable {}
  | intern {table : SymbolTable} (key : MethodKey) :
      Reachable table → Reachable (table.intern key).2

namespace Reachable

/-- The number of a symbol is its position. -/
theorem index_eq {table : SymbolTable} (reachable : table.Reachable) {position : Nat}
    {symbol : Symbol} (found : table.symbols[position]? = some symbol) :
    symbol.index = position := by
  induction reachable generalizing position symbol with
  | empty => exact nomatch found
  | @intern table key _ ih =>
      unfold SymbolTable.intern at found
      cases known : table.lookup? key with
      | some earlier =>
          rw [known] at found
          exact ih found
      | none =>
          rw [known] at found
          simp only [List.getElem?_append] at found
          by_cases inside : position < table.symbols.length
          · rw [if_pos inside] at found
            exact ih found
          · rw [if_neg inside] at found
            obtain ⟨last, rfl⟩ := List.getElem?_eq_some_iff.mp found
            simp only [List.length_singleton] at last
            simp only [List.getElem_singleton]
            omega

/-- A table gives each number once. -/
theorem eq_of_index {table : SymbolTable} (reachable : table.Reachable) {first second : Symbol}
    (left : first ∈ table.symbols) (right : second ∈ table.symbols)
    (same : first.index = second.index) : first = second := by
  obtain ⟨position, atFirst⟩ := List.getElem?_of_mem left
  obtain ⟨other, atSecond⟩ := List.getElem?_of_mem right
  have positions : position = other := by
    rw [← reachable.index_eq atFirst, ← reachable.index_eq atSecond, same]
  rw [positions, atSecond] at atFirst
  exact (Option.some.inj atFirst).symm

theorem internAll {table : SymbolTable} (reachable : table.Reachable) (keys : List MethodKey) :
    (table.internAll keys).2.Reachable := by
  induction keys generalizing table with
  | nil => exact reachable
  | cons key _ ih => exact ih (.intern key reachable)

end Reachable

end SymbolTable

namespace CallGraph

/-! ## Symbols of a graph -/

/-- The callers and callees of a graph. -/
def symbols (graph : CallGraph) : List Symbol :=
  graph.rows.flatMap (fun row => row.1 :: row.2)

/-- Every symbol of the graph was handed out by the table. -/
def Over (graph : CallGraph) (table : SymbolTable) : Prop :=
  ∀ symbol ∈ graph.symbols, symbol ∈ table.symbols

/-- Symbols of the graph with one number are one symbol. -/
def Unambiguous (graph : CallGraph) : Prop :=
  ∀ ⦃first second : Symbol⦄, first ∈ graph.symbols → second ∈ graph.symbols →
    first.index = second.index → first = second

variable {graph : CallGraph}

theorem Over.unambiguous {table : SymbolTable} (fromTable : graph.Over table)
    (reachable : table.Reachable) : graph.Unambiguous :=
  fun _ _ left right => reachable.eq_of_index (fromTable _ left) (fromTable _ right)

theorem mem_symbols_of_caller {caller : Symbol} (among : caller ∈ graph.callers) :
    caller ∈ graph.symbols := by
  obtain ⟨row, member, rfl⟩ := List.mem_map.mp among
  exact List.mem_flatMap.mpr ⟨row, member, List.mem_cons_self⟩

/-- The callees of a method are the callees of its number. -/
theorem callees_congr {first second : Symbol} (same : first.index = second.index) :
    graph.callees first = graph.callees second := by
  unfold callees Symbol.same
  rw [same]

/-! ## Graphs made from records -/

/-- Extending a graph brings in at most the one caller. -/
theorem mem_callers_extend {caller other : Symbol} {callees : List Symbol}
    (among : other ∈ (graph.extend caller callees).callers) :
    other = caller ∨ other ∈ graph.callers := by
  unfold callers extend at among
  unfold callers
  generalize graph.rows = rows at among ⊢
  induction rows with
  | nil => exact .inl (List.mem_singleton.mp among)
  | cons row rows ih =>
      obtain ⟨first, known⟩ := row
      simp only [extendRows] at among
      split at among
      · exact .inr among
      · rcases List.mem_cons.mp among with rfl | later
        · exact .inr List.mem_cons_self
        · exact (ih later).imp_right (List.mem_cons_of_mem first)

/-- A caller of a graph made with a policy is the caller of a record, and one that the policy does
not ignore. -/
theorem exists_record_of_mem_callers {records : List CallRecord} {policy : Policy}
    {caller : Symbol} (among : caller ∈ (ofRecords records policy).callers) :
    ∃ record ∈ records, record.caller = caller ∧ policy.ignores caller = false := by
  have start : ∀ caller ∈ ({} : CallGraph).callers,
      ∃ record ∈ records, record.caller = caller ∧ policy.ignores caller = false :=
    fun _ member => nomatch member
  refine List.foldlRecOn
    (motive := fun graph : CallGraph => ∀ caller ∈ graph.callers,
      ∃ record ∈ records, record.caller = caller ∧ policy.ignores caller = false)
    records (addRecord policy) start ?_ caller among
  intro graph earlier record listed caller member
  unfold addRecord at member
  cases ignored : policy.ignores record.caller with
  | true =>
      rw [if_pos ignored] at member
      exact earlier caller member
  | false =>
      rw [if_neg (by simp [ignored])] at member
      rcases mem_callers_extend member with rfl | known
      · exact ⟨record, listed, rfl, ignored⟩
      · exact earlier caller known

theorem not_ignored_of_mem_callers_ofRecords {records : List CallRecord} {policy : Policy}
    {caller : Symbol} (among : caller ∈ (ofRecords records policy).callers) :
    policy.ignores caller = false := by
  obtain ⟨_, _, _, regarded⟩ := exists_record_of_mem_callers among
  exact regarded

/-! ## Calls -/

/-- One method calls another. -/
def Calls (graph : CallGraph) (caller callee : Symbol) : Prop :=
  callee ∈ graph.callees caller

instance : DecidableRel graph.Calls :=
  fun caller callee => inferInstanceAs (Decidable (callee ∈ graph.callees caller))

/-- A call stands in the row of a caller. -/
theorem Calls.exists_row {caller callee : Symbol} (calls : graph.Calls caller callee) :
    ∃ row ∈ graph.rows, row.1.index = caller.index ∧ callee ∈ row.2 := by
  unfold Calls callees at calls
  cases found : graph.rows.find? (fun row => row.1.same caller) with
  | none =>
      rw [found] at calls
      exact nomatch calls
  | some row =>
      rw [found] at calls
      have same := List.find?_some found
      exact ⟨row, List.mem_of_find?_eq_some found, beq_iff_eq.mp same, calls⟩

theorem Calls.mem_symbols {caller callee : Symbol} (calls : graph.Calls caller callee) :
    callee ∈ graph.symbols := by
  obtain ⟨row, member, _, among⟩ := calls.exists_row
  exact List.mem_flatMap.mpr ⟨row, member, List.mem_cons_of_mem _ among⟩

theorem Calls.exists_caller {caller callee : Symbol} (calls : graph.Calls caller callee) :
    ∃ known ∈ graph.callers, known.index = caller.index := by
  obtain ⟨row, member, same, _⟩ := calls.exists_row
  exact ⟨row.1, List.mem_map_of_mem member, same⟩

/-! ## Cycles -/

/-- The methods are distinct and each calls the next one, the last calling the
first. -/
structure IsCycle (graph : CallGraph) (first : Symbol) (rest : List Symbol) : Prop where
  distinct : (first :: rest).Nodup
  calls : List.IsChain graph.Calls (first :: rest ++ [first])

instance (first : Symbol) (rest : List Symbol) : Decidable (graph.IsCycle first rest) :=
  decidable_of_iff ((first :: rest).Nodup ∧ List.IsChain graph.Calls (first :: rest ++ [first]))
    ⟨fun both => ⟨both.1, both.2⟩, fun cycle => ⟨cycle.distinct, cycle.calls⟩⟩

/-- The graph has no cycle. -/
def Acyclic (graph : CallGraph) : Prop :=
  ∀ first rest, ¬ graph.IsCycle first rest

/-- Along a chain every element but the last is related to one of the elements. -/
theorem exists_next_of_isChain {α : Type} {related : α → α → Prop} {elements : List α} {last : α}
    (chain : List.IsChain related (elements ++ [last])) {element : α}
    (among : element ∈ elements) : ∃ next ∈ elements ++ [last], related element next := by
  induction elements with
  | nil => exact nomatch among
  | cons head others ih =>
      rcases List.mem_cons.mp among with rfl | later
      · cases others with
        | nil => exact ⟨last, by simp, (List.isChain_cons_cons.mp chain).1⟩
        | cons next others => exact ⟨next, by simp, (List.isChain_cons_cons.mp chain).1⟩
      · obtain ⟨next, member, step⟩ := ih chain.tail later
        exact ⟨next, List.mem_cons_of_mem _ member, step⟩

/-- Along a chain something is related to every element but the first. -/
theorem exists_previous_of_isChain {α : Type} {related : α → α → Prop} {head : α}
    {tail : List α} (chain : List.IsChain related (head :: tail)) {element : α}
    (among : element ∈ tail) : ∃ previous, related previous element := by
  induction tail generalizing head with
  | nil => exact nomatch among
  | cons next others ih =>
      obtain ⟨step, onward⟩ := List.isChain_cons_cons.mp chain
      rcases List.mem_cons.mp among with rfl | later
      · exact ⟨head, step⟩
      · exact ih onward later

/-- Closing a path by its first method brings in no other method. -/
theorem mem_of_mem_closed {first : Symbol} {rest : List Symbol} {method : Symbol}
    (member : method ∈ first :: rest ++ [first]) : method ∈ first :: rest := by
  rcases List.mem_append.mp member with inside | last
  · exact inside
  · rw [List.mem_singleton.mp last]
    exact List.mem_cons_self

namespace IsCycle

variable {first : Symbol} {rest : List Symbol}

/-- Every method of a cycle calls a method of the cycle. -/
theorem exists_next (cycle : graph.IsCycle first rest) {method : Symbol}
    (among : method ∈ first :: rest) : ∃ next ∈ first :: rest, graph.Calls method next := by
  obtain ⟨next, member, calls⟩ := exists_next_of_isChain cycle.calls among
  exact ⟨next, mem_of_mem_closed member, calls⟩

/-- Every method of a cycle is called, and so is a symbol of the graph. -/
theorem mem_symbols (cycle : graph.IsCycle first rest) {method : Symbol}
    (among : method ∈ first :: rest) : method ∈ graph.symbols := by
  have listed : method ∈ rest ++ [first] := by
    rcases List.mem_cons.mp among with rfl | later
    · exact List.mem_append_right _ (List.mem_singleton.mpr rfl)
    · exact List.mem_append_left _ later
  obtain ⟨previous, calls⟩ := exists_previous_of_isChain cycle.calls listed
  exact Calls.mem_symbols calls

/-- In an unambiguous graph every method of a cycle is a caller. -/
theorem mem_callers (cycle : graph.IsCycle first rest) (unambiguous : graph.Unambiguous)
    {method : Symbol} (among : method ∈ first :: rest) : method ∈ graph.callers := by
  obtain ⟨next, _, calls⟩ := cycle.exists_next among
  obtain ⟨caller, known, same⟩ := calls.exists_caller
  have equal := unambiguous (mem_symbols_of_caller known) (cycle.mem_symbols among) same
  exact equal ▸ known

end IsCycle

end CallGraph

/-! ## A small graph

Four methods of one module: `main` calls `load`, which calls `parse` and `retry`;
`parse` calls `load` back, and `retry` calls itself. -/

namespace Sample

def main : Symbol := ⟨0, ⟨"app", "app", "main"⟩⟩

def load : Symbol := ⟨1, ⟨"app", "app", "load"⟩⟩

def parse : Symbol := ⟨2, ⟨"app", "app", "parse"⟩⟩

def retry : Symbol := ⟨3, ⟨"app", "app", "retry"⟩⟩

/-- The table that handed out the four symbols. -/
def table : SymbolTable :=
  (({} : SymbolTable).internAll [main.key, load.key, parse.key, retry.key]).2

def graph : CallGraph :=
  CallGraph.ofRecords
    [⟨main, [some load]⟩, ⟨load, [some parse, none, some retry]⟩, ⟨parse, [some load]⟩,
      ⟨retry, [some retry]⟩] {}

theorem table_reachable : table.Reachable :=
  SymbolTable.Reachable.empty.internAll _

theorem graph_over : graph.Over table := by
  unfold CallGraph.Over
  decide

end Sample

end CyclicCalls
