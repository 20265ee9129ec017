import CyclicCalls.Proofs.RecordGraphs
import CyclicCalls.Workspace
import Mathlib.Data.List.Forall2
/-!
# The records of a workspace

Collecting the records of documents does two things at once. It resolves calls to the keys
of methods, and it hands out symbols for keys. Only the second depends on what was handed
out before. So the records can be made in two steps: first the keys of all records
(`KeyRecord`), which the index alone determines, and then the symbols, from left to right
(`recordDocuments_recorded`).

A table only grows, and a symbol that was handed out stays the symbol of its key
(`SymbolTable.Extends`). Hence the records name the methods of their keys in the table at
the end (`SymbolTable.internRecords_names`).
-/

set_option autoImplicit false

namespace CyclicCalls

open Source Solution Index

/-! ## Growing tables -/

namespace SymbolTable

/-- The later table begins with the symbols of the earlier one, and is made by interning if
that one is. -/
structure Extends (table later : SymbolTable) : Prop where
  symbols : table.symbols <+: later.symbols
  reachable : table.Reachable → later.Reachable

namespace Extends

theorem refl (table : SymbolTable) : Extends table table :=
  ⟨List.prefix_refl _, id⟩

theorem trans {first second third : SymbolTable} (earlier : Extends first second)
    (later : Extends second third) : Extends first third :=
  ⟨earlier.symbols.trans later.symbols,
    fun reachable => later.reachable (earlier.reachable reachable)⟩

/-- A symbol that was handed out stays the symbol of its key. -/
theorem lookup? {table later : SymbolTable} (grown : Extends table later) {key : MethodKey}
    {symbol : Symbol} (found : table.lookup? key = some symbol) :
    later.lookup? key = some symbol := by
  obtain ⟨added, split⟩ := grown.symbols
  unfold SymbolTable.lookup? at found ⊢
  rw [← split, List.find?_append, found]
  rfl

end Extends

theorem extends_intern (table : SymbolTable) (key : MethodKey) :
    table.Extends (table.intern key).2 := by
  refine ⟨?_, fun reachable => .intern key reachable⟩
  unfold intern
  cases table.lookup? key with
  | some symbol => exact List.prefix_refl _
  | none => exact List.prefix_append _ _

/-- Interning a key hands out the symbol of the key. -/
theorem lookup?_intern (table : SymbolTable) (key : MethodKey) :
    (table.intern key).2.lookup? key = some (table.intern key).1 := by
  unfold intern
  cases found : table.lookup? key with
  | some symbol => exact found
  | none =>
      unfold lookup? at found ⊢
      simp [List.find?_append, found]

theorem mem_of_lookup? {table : SymbolTable} {key : MethodKey} {symbol : Symbol}
    (found : table.lookup? key = some symbol) : symbol ∈ table.symbols :=
  List.mem_of_find?_eq_some found

end SymbolTable

/-! ## Records of keys -/

/-- A declared method with the targets of its calls, before symbols are handed out. -/
structure KeyRecord where
  caller : MethodKey
  targets : List (Option MethodKey)
deriving DecidableEq, Repr

namespace SymbolTable

/-- Hand out the symbols of the targets that are known, from left to right. -/
def internTargets (table : SymbolTable) :
    List (Option MethodKey) → List (Option Symbol) × SymbolTable
  | [] => ([], table)
  | none :: keys =>
    let (symbols, last) := table.internTargets keys
    (none :: symbols, last)
  | some key :: keys =>
    let (symbol, next) := table.intern key
    let (symbols, last) := next.internTargets keys
    (some symbol :: symbols, last)

/-- Hand out the symbol of a caller, and then those of its targets. -/
def internRecord (table : SymbolTable) (record : KeyRecord) : CallRecord × SymbolTable :=
  let (caller, next) := table.intern record.caller
  let (targets, last) := next.internTargets record.targets
  (⟨caller, targets⟩, last)

/-- Hand out the symbols of records from left to right. -/
def internRecords (table : SymbolTable) : List KeyRecord → List CallRecord × SymbolTable
  | [] => ([], table)
  | record :: records =>
    let (first, next) := table.internRecord record
    let (others, last) := next.internRecords records
    (first :: others, last)

/-- A record has the symbols that a table gives to its keys. -/
structure Names (table : SymbolTable) (keys : KeyRecord) (record : CallRecord) : Prop where
  caller : table.lookup? keys.caller = some record.caller
  targets : List.Forall₂ (Option.Rel (fun key symbol => table.lookup? key = some symbol))
    keys.targets record.targets

theorem Extends.targets {table later : SymbolTable} (grown : table.Extends later)
    {keys : List (Option MethodKey)} {symbols : List (Option Symbol)}
    (named : List.Forall₂ (Option.Rel (fun key symbol => table.lookup? key = some symbol))
      keys symbols) :
    List.Forall₂ (Option.Rel (fun key symbol => later.lookup? key = some symbol)) keys symbols := by
  refine named.imp fun key symbol related => ?_
  cases related with
  | none => exact .none
  | some found => exact .some (grown.lookup? found)

theorem Names.of_extends {table later : SymbolTable} {keys : KeyRecord} {record : CallRecord}
    (names : table.Names keys record) (grown : table.Extends later) : later.Names keys record :=
  ⟨grown.lookup? names.caller, grown.targets names.targets⟩

theorem internTargets_names (table : SymbolTable) (keys : List (Option MethodKey)) :
    table.Extends (table.internTargets keys).2 ∧
      List.Forall₂ (Option.Rel (fun key symbol =>
        (table.internTargets keys).2.lookup? key = some symbol)) keys
        (table.internTargets keys).1 := by
  induction keys generalizing table with
  | nil => exact ⟨.refl table, .nil⟩
  | cons key keys ih =>
      cases key with
      | none =>
          obtain ⟨grown, named⟩ := ih table
          exact ⟨grown, .cons .none named⟩
      | some key =>
          obtain ⟨grown, named⟩ := ih (table.intern key).2
          exact ⟨(table.extends_intern key).trans grown,
            .cons (.some (grown.lookup? (table.lookup?_intern key))) named⟩

theorem internRecord_names (table : SymbolTable) (record : KeyRecord) :
    table.Extends (table.internRecord record).2 ∧
      (table.internRecord record).2.Names record (table.internRecord record).1 := by
  obtain ⟨grown, named⟩ := internTargets_names (table.intern record.caller).2 record.targets
  exact ⟨(table.extends_intern record.caller).trans grown,
    grown.lookup? (table.lookup?_intern record.caller), named⟩

/-- **Records name the methods of their keys** in the table at the end, which has grown out
of the table at the start. -/
theorem internRecords_names (table : SymbolTable) (records : List KeyRecord) :
    table.Extends (table.internRecords records).2 ∧
      List.Forall₂ (table.internRecords records).2.Names records
        (table.internRecords records).1 := by
  induction records generalizing table with
  | nil => exact ⟨.refl table, .nil⟩
  | cons record records ih =>
      obtain ⟨first, named⟩ := internRecord_names table record
      obtain ⟨grown, others⟩ := ih (table.internRecord record).2
      exact ⟨first.trans grown, .cons (named.of_extends grown) others⟩

theorem internRecords_append (table : SymbolTable) (first second : List KeyRecord) :
    table.internRecords (first ++ second) =
      let (records, next) := table.internRecords first
      let (others, last) := next.internRecords second
      (records ++ others, last) := by
  induction first generalizing table with
  | nil => rfl
  | cons record first ih =>
      simp only [List.cons_append, internRecords, ih]

end SymbolTable

/-! ## Records of documents -/

namespace Workspace

/-- The keys of a declaration of the given module and of the targets of its calls. -/
def keyRecord (index : SolutionIndex) (info : ModuleInfo) (declaration : Declaration) :
    KeyRecord where
  caller := declaration.key
  targets := declaration.calls.map (fun call => (Resolve.target index info declaration call).value)

/-- The declarations of a document, each with the module it is resolved in. -/
def declared (index : SolutionIndex) (number : Nat) : List (ModuleInfo × Declaration) :=
  match index.ofDocument? number with
  | some info => info.declarations.map (fun declaration => (info, declaration))
  | none => []

/-- The declarations of a document are those of the module that it was indexed as. -/
theorem mem_declared {index : SolutionIndex} {number : Nat} {info : ModuleInfo}
    {declaration : Declaration} :
    (info, declaration) ∈ declared index number ↔
      index.ofDocument? number = some info ∧ declaration ∈ info.declarations := by
  unfold declared
  cases index.ofDocument? number with
  | none => exact ⟨(nomatch ·), fun both => nomatch both.1⟩
  | some found =>
      constructor
      · intro member
        obtain ⟨other, standing, same⟩ := List.mem_map.mp member
        cases same
        exact ⟨rfl, standing⟩
      · rintro ⟨same, standing⟩
        cases same
        exact List.mem_map_of_mem standing

/-- The keys of the records of a document. -/
def keyRecords (index : SolutionIndex) (number : Nat) : List KeyRecord :=
  (declared index number).map (fun entry => keyRecord index entry.1 entry.2)

theorem targets_value (index : SolutionIndex) (info : ModuleInfo) (declaration : Declaration)
    (caller : Symbol) (calls : List Call) (table : SymbolTable) :
    (targets index info declaration caller calls table).value =
      table.internTargets
        (calls.map (fun call => (Resolve.target index info declaration call).value)) := by
  induction calls generalizing table with
  | nil => rfl
  | cons call calls ih =>
      rw [targets, List.map_cons, Logged.value_bind]
      cases (Resolve.target index info declaration call).value with
      | none =>
          simp only [Logged.value_bind, Logged.value_pure, ih, SymbolTable.internTargets]
      | some key =>
          simp only [Logged.value_bind, Logged.value_pure, ih, SymbolTable.internTargets]

theorem record_value (index : SolutionIndex) (info : ModuleInfo) (declaration : Declaration)
    (table : SymbolTable) :
    (record index info declaration table).value =
      table.internRecord (keyRecord index info declaration) := by
  simp only [record, Logged.value_bind, Logged.value_pure, targets_value]
  rfl

theorem recordAll_value (index : SolutionIndex) (info : ModuleInfo)
    (declarations : List Declaration) (table : SymbolTable) :
    (recordAll index info declarations table).value =
      table.internRecords (declarations.map (keyRecord index info)) := by
  induction declarations generalizing table with
  | nil => rfl
  | cons declaration declarations ih =>
      simp only [recordAll, Logged.value_bind, Logged.value_pure, record_value, ih, List.map_cons,
        SymbolTable.internRecords]

/-- Documents are resolved as what the index found in them. -/
def Coherent (workspace : Workspace) : Prop :=
  ∀ number info, workspace.resolved.lookup number = some info →
    workspace.index.ofDocument? number = some info

/-- What is known after some records were made: they have the symbols of their keys, handed
out from left to right, and the index is as it was. -/
structure Recorded (workspace : Workspace) (keys : List KeyRecord) (records : List CallRecord)
    (last : Workspace) : Prop where
  interned : workspace.table.internRecords keys = (records, last.table)
  index : last.index = workspace.index
  coherent : last.Coherent

/-- The module of a document that was indexed, and the workspace that has fixed it. -/
theorem Coherent.moduleOf?_eq {workspace : Workspace} (coherent : workspace.Coherent)
    {number : Nat} {info : ModuleInfo} (found : workspace.index.ofDocument? number = some info) :
    ∃ next : Workspace, workspace.moduleOf? number = some (info, next) ∧
      next.table = workspace.table ∧ next.index = workspace.index ∧ next.Coherent := by
  unfold moduleOf?
  cases fixed : workspace.resolved.lookup number with
  | some known =>
      have same := coherent number known fixed
      rw [found, Option.some.injEq] at same
      subst same
      exact ⟨workspace, rfl, rfl, rfl, coherent⟩
  | none =>
      rw [found]
      refine ⟨_, rfl, rfl, rfl, ?_⟩
      intro other known listed
      rw [List.lookup_cons] at listed
      cases here : other == number with
      | true =>
          rw [here, Option.some.injEq] at listed
          exact listed ▸ beq_iff_eq.mp here ▸ found
      | false =>
          rw [here] at listed
          exact coherent other known listed

theorem recordDocument_recorded {workspace : Workspace} (coherent : workspace.Coherent)
    (number : Nat) :
    workspace.Recorded (keyRecords workspace.index number)
      (workspace.recordDocument number).value.1 (workspace.recordDocument number).value.2 := by
  cases found : workspace.index.ofDocument? number with
  | none =>
      have nothing : workspace.declarations number = [] := by rw [declarations, found]
      have keys : keyRecords workspace.index number = [] := by rw [keyRecords, declared, found]; rfl
      rw [recordDocument, nothing, keys]
      exact ⟨rfl, rfl, coherent⟩
  | some info =>
      have listed : workspace.declarations number = info.declarations := by
        rw [declarations, found]
      have keys : keyRecords workspace.index number =
          info.declarations.map (keyRecord workspace.index info) := by
        simp only [keyRecords, declared, found, List.map_map, Function.comp_def]
      rw [recordDocument, listed, keys]
      cases info.declarations with
      | nil => exact ⟨rfl, rfl, coherent⟩
      | cons declaration later =>
          obtain ⟨next, fixed, table, index, still⟩ := coherent.moduleOf?_eq found
          rw [fixed]
          simp only [Logged.value_bind, Logged.value_pure, recordAll_value]
          exact ⟨by rw [table, index], index, still⟩

/-- **The records of documents** are the records of their keys, with symbols handed out from
left to right. -/
theorem recordDocuments_recorded {workspace : Workspace} (coherent : workspace.Coherent)
    (numbers : List Nat) :
    workspace.Recorded (numbers.flatMap (keyRecords workspace.index))
      (recordDocuments numbers workspace).value.1 (recordDocuments numbers workspace).value.2 := by
  induction numbers generalizing workspace with
  | nil => exact ⟨rfl, rfl, coherent⟩
  | cons number numbers ih =>
      obtain ⟨interned, index, still⟩ := recordDocument_recorded coherent number
      obtain ⟨others, kept, last⟩ := ih still
      rw [index] at others
      simp only [recordDocuments, Logged.value_bind, Logged.value_pure, List.flatMap_cons]
      refine ⟨?_, kept.trans index, last⟩
      rw [SymbolTable.internRecords_append, interned]
      simp only [others]

end Workspace

end CyclicCalls
