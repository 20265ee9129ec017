import CyclicCalls.Analysis
import CyclicCalls.Proofs.CleanVerdict
import CyclicCalls.Proofs.RecordedCalls
/-!
# The evidence for a report

An analysis takes in the documents of a solution, records the calls of all their
declarations, builds the graph of the callers that the policy lets through, and searches
it. What it reports depends on the documents and on what was read from them, and on nothing
else of the files (`ofDocuments`, `run_value`).

Each reported chain can be traced back through these steps. Its methods are callers of the
graph, so they are declared, and the policy lets them through. Each arrow is a call of the
graph, so it is a target of a record, and that is what a call in a declaration of the first
method resolves to. In the other direction, methods with such calls between them make a cycle
of the graph, and the search then reports some chain (`chains_have_evidence`).
-/

set_option autoImplicit false

namespace CyclicCalls

open Source Solution Index

/-- Documents with the statements that were read from them, if they could be read. -/
abbrev ParsedDocuments : Type := List (Document × Option (List Stmt))

namespace Workspace

/-- Take in documents with what was read from them, from left to right. -/
def takeIn : ParsedDocuments → Workspace → Logged Workspace
  | [], workspace => pure workspace
  | (document, statements) :: later, workspace => do
    let next ← workspace.addDocument document statements
    takeIn later next

/-- What taking in a document leaves alone. -/
theorem addDocument_keeps (workspace : Workspace) (document : Document)
    (statements : Option (List Stmt)) :
    (workspace.addDocument document statements).value.table = workspace.table ∧
      (workspace.addDocument document statements).value.resolved = workspace.resolved ∧
      (workspace.addDocument document statements).value.documents =
        workspace.documents ++ [(document, statements)] := by
  cases statements with
  | none => exact ⟨rfl, rfl, rfl⟩
  | some statements => exact ⟨rfl, rfl, rfl⟩

theorem takeIn_keeps (parsed : ParsedDocuments) (workspace : Workspace) :
    (takeIn parsed workspace).value.table = workspace.table ∧
      (takeIn parsed workspace).value.resolved = workspace.resolved ∧
      (takeIn parsed workspace).value.documents = workspace.documents ++ parsed := by
  induction parsed generalizing workspace with
  | nil => exact ⟨rfl, rfl, (List.append_nil _).symm⟩
  | cons entry later ih =>
      obtain ⟨document, statements⟩ := entry
      obtain ⟨table, resolved, documents⟩ := addDocument_keeps workspace document statements
      obtain ⟨tableLater, resolvedLater, documentsLater⟩ :=
        ih (workspace.addDocument document statements).value
      rw [takeIn, Logged.value_bind]
      refine ⟨tableLater.trans table, resolvedLater.trans resolved, ?_⟩
      rw [documentsLater, documents, List.append_assoc]
      rfl

/-- Read the documents of a list. -/
def readAll (disk : Disk) : List Document → Except LoadError ParsedDocuments
  | [] => .ok []
  | document :: later => do
    let statements ← readDocument disk document
    let others ← readAll disk later
    .ok ((document, statements) :: others)

theorem addDocuments_value (disk : Disk) (documents : List Document) (workspace : Workspace) :
    (addDocuments disk documents workspace).value =
      (readAll disk documents).map (fun parsed => (takeIn parsed workspace).value) := by
  induction documents generalizing workspace with
  | nil => rfl
  | cons document later ih =>
      rw [addDocuments, readAll]
      cases readDocument disk document with
      | error error => rfl
      | ok statements =>
          rw [Logged.value_bind, ih]
          cases readAll disk later with
          | error error => rfl
          | ok others => rfl

/-- The documents of a solution with what can be read from them. -/
def readSolution (disk : Disk) (solution : Path) : Except LoadFailure ParsedDocuments :=
  match (openAt disk solution.text).value with
  | .error failure => .error failure
  | .ok projects => (readAll disk (projects.flatMap (·.documents))).mapError .reported

end Workspace

namespace Analysis

/-- The chains of documents with what was read from them. -/
def ofDocuments (parsed : ParsedDocuments) (policy : Policy) :
    Logged (Except Failure (List String)) := do
  let workspace ← Workspace.takeIn parsed {}
  let (records, _) ← Workspace.recordDocuments (List.range parsed.length) workspace
  let built ← graph records policy
  cycles built policy

/-- An analysis reports the chains of the documents that the solution has. -/
theorem run_value (disk : Disk) (solution : Path) (policy : Policy) :
    (run disk solution policy).value =
      match Workspace.readSolution disk solution with
      | .error error => .error (.load error)
      | .ok parsed => (ofDocuments parsed policy).value := by
  simp only [run, Workspace.collect, Workspace.openSolution, Workspace.readSolution,
    Logged.value_bind]
  cases (openAt disk solution.text).value with
  | error error => rfl
  | ok projects =>
      simp only [Logged.value_bind, Workspace.addDocuments_value]
      cases Workspace.readAll disk (projects.flatMap (·.documents)) with
      | error error => rfl
      | ok parsed =>
          obtain ⟨_, _, documents⟩ := Workspace.takeIn_keeps parsed {}
          simp only [Except.map, Except.mapError, Logged.value_bind, Logged.value_pure,
            ofDocuments, documents, List.nil_append, List.length_nil, Nat.sub_zero,
            List.range_eq_range']

/-! ## Declarations and records -/

/-- The workspace that has taken in the documents. -/
def opened (parsed : ParsedDocuments) : Workspace :=
  (Workspace.takeIn parsed {}).value

/-- The records of all declarations of the documents, and the workspace after them. -/
def collected (parsed : ParsedDocuments) : List CallRecord × Workspace :=
  (Workspace.recordDocuments (List.range parsed.length) (opened parsed)).value

/-- A declaration of one of the documents, with the module it is resolved in. -/
def Declares (parsed : ParsedDocuments) (info : ModuleInfo) (declaration : Declaration) : Prop :=
  ∃ number < parsed.length, (opened parsed).index.ofDocument? number = some info ∧
    declaration ∈ info.declarations

/-- The symbol that the analysis has handed out for a key. -/
def symbolOf? (parsed : ParsedDocuments) (key : MethodKey) : Option Symbol :=
  (collected parsed).2.table.lookup? key

/-- What a call in a declaration resolves to. -/
def targetOf (parsed : ParsedDocuments) (info : ModuleInfo) (declaration : Declaration)
    (call : Call) : Option Symbol :=
  (Resolve.target (opened parsed).index info declaration call).value.bind (symbolOf? parsed)

/-- A method is the symbol of a declaration of the documents. -/
def IsDeclared (parsed : ParsedDocuments) (method : Symbol) : Prop :=
  ∃ info declaration, Declares parsed info declaration ∧
    symbolOf? parsed declaration.key = some method

/-- A declaration of the first method has a call that resolves to the second. -/
def Invokes (parsed : ParsedDocuments) (caller callee : Symbol) : Prop :=
  ∃ info declaration, Declares parsed info declaration ∧
    symbolOf? parsed declaration.key = some caller ∧
    ∃ call ∈ declaration.calls, targetOf parsed info declaration call = some callee

theorem opened_coherent (parsed : ParsedDocuments) : (opened parsed).Coherent := by
  intro number info listed
  rw [opened, (Workspace.takeIn_keeps parsed {}).2.1] at listed
  exact nomatch listed

/-- Whatever stands on the right of two related lists has a partner on the left. -/
theorem exists_of_mem_right {α β : Type} {related : α → β → Prop} {left : List α} {right : List β}
    (all : List.Forall₂ related left right) {element : β} (among : element ∈ right) :
    ∃ partner ∈ left, related partner element := by
  induction all with
  | nil => exact nomatch among
  | @cons first second _ _ here _ ih =>
      rcases List.mem_cons.mp among with rfl | later
      · exact ⟨first, List.mem_cons_self, here⟩
      · obtain ⟨partner, member, holds⟩ := ih later
        exact ⟨partner, List.mem_cons_of_mem _ member, holds⟩

/-- The table of an analysis is made by interning, and the records have its symbols. -/
theorem collected_names (parsed : ParsedDocuments) :
    (collected parsed).2.table.Reachable ∧
      List.Forall₂ (collected parsed).2.table.Names
        ((List.range parsed.length).flatMap (Workspace.keyRecords (opened parsed).index))
        (collected parsed).1 := by
  obtain ⟨interned, _, _⟩ := Workspace.recordDocuments_recorded (opened_coherent parsed)
    (List.range parsed.length)
  have fresh : (opened parsed).table = {} := (Workspace.takeIn_keeps parsed {}).1
  obtain ⟨grown, named⟩ := (opened parsed).table.internRecords_names
    ((List.range parsed.length).flatMap (Workspace.keyRecords (opened parsed).index))
  rw [interned] at grown named
  exact ⟨grown.reachable (fresh ▸ .empty), named⟩

/-- The keys of the records are those of the declarations. -/
theorem mem_keyRecords {parsed : ParsedDocuments} {keys : KeyRecord} :
    keys ∈ (List.range parsed.length).flatMap (Workspace.keyRecords (opened parsed).index) ↔
      ∃ info declaration, Declares parsed info declaration ∧
        Workspace.keyRecord (opened parsed).index info declaration = keys := by
  simp only [List.mem_flatMap, List.mem_range, Workspace.keyRecords, List.mem_map,
    Workspace.mem_declared, Declares, Prod.exists]
  constructor
  · rintro ⟨number, inside, info, declaration, ⟨found, standing⟩, rfl⟩
    exact ⟨info, declaration, ⟨number, inside, found, standing⟩, rfl⟩
  · rintro ⟨info, declaration, ⟨number, inside, found, standing⟩, rfl⟩
    exact ⟨number, inside, info, declaration, ⟨found, standing⟩, rfl⟩

/-- Every record is that of a declaration of the documents. -/
theorem exists_declaration {parsed : ParsedDocuments} {record : CallRecord}
    (member : record ∈ (collected parsed).1) :
    ∃ info declaration, Declares parsed info declaration ∧
      (collected parsed).2.table.Names (Workspace.keyRecord (opened parsed).index info declaration)
        record := by
  obtain ⟨keys, listed, named⟩ := exists_of_mem_right (collected_names parsed).2 member
  obtain ⟨info, declaration, declares, rfl⟩ := mem_keyRecords.mp listed
  exact ⟨info, declaration, declares, named⟩

/-- Every declaration of the documents has a record. -/
theorem exists_record {parsed : ParsedDocuments} {info : ModuleInfo} {declaration : Declaration}
    (declares : Declares parsed info declaration) :
    ∃ record ∈ (collected parsed).1,
      (collected parsed).2.table.Names (Workspace.keyRecord (opened parsed).index info declaration)
        record :=
  exists_of_mem_right (collected_names parsed).2.flip
    (mem_keyRecords.mpr ⟨info, declaration, declares, rfl⟩)

/-- The targets of a record are what the calls of the declaration resolve to. -/
theorem mem_targets_iff {parsed : ParsedDocuments} {info : ModuleInfo} {declaration : Declaration}
    {record : CallRecord}
    (named : (collected parsed).2.table.Names
      (Workspace.keyRecord (opened parsed).index info declaration) record) {callee : Symbol} :
    some callee ∈ record.targets ↔
      ∃ call ∈ declaration.calls, targetOf parsed info declaration call = some callee := by
  constructor
  · intro target
    obtain ⟨key, listed, related⟩ := exists_of_mem_right named.targets target
    obtain ⟨call, among, resolved⟩ := List.mem_map.mp listed
    refine ⟨call, among, ?_⟩
    cases related with
    | some found =>
        rw [targetOf, resolved]
        exact found
  · rintro ⟨call, among, resolved⟩
    obtain ⟨key, known, found⟩ := Option.bind_eq_some_iff.mp resolved
    obtain ⟨target, listed, related⟩ := exists_of_mem_right named.targets.flip
      (List.mem_map_of_mem among)
    rw [known] at related
    cases related with
    | some same =>
        cases same.symm.trans found
        exact listed

/-- All symbols of the records were handed out by the table of the analysis. -/
theorem collected_allOver (parsed : ParsedDocuments) :
    CallRecord.AllOver (collected parsed).1 (collected parsed).2.table := by
  intro record member symbol mentioned
  obtain ⟨info, declaration, _, named⟩ := exists_declaration member
  rcases List.mem_cons.mp mentioned with rfl | target
  · exact SymbolTable.mem_of_lookup? named.caller
  · obtain ⟨key, _, related⟩ := exists_of_mem_right named.targets
      (show some symbol ∈ record.targets by simpa using target)
    cases related with
    | some found => exact SymbolTable.mem_of_lookup? found

/-! ## The graph of an analysis -/

/-- The graph that is searched for the chains of the documents. -/
def graphOf (parsed : ParsedDocuments) (policy : Policy) : CallGraph :=
  CallGraph.ofRecords (collected parsed).1 policy

/-- An analysis of documents returns the chains of their graph. -/
theorem ofDocuments_value (parsed : ParsedDocuments) (policy : Policy) :
    (ofDocuments parsed policy).value = .ok ((graphOf parsed policy).cycles policy) := by
  have finished : (Search.run (graphOf parsed policy) policy {}).2 = none :=
    Search.runFrom_not_stopped _ policy _ rfl
  show (cycles (graphOf parsed policy) policy).value = _
  unfold cycles CallGraph.cycles
  generalize Search.run (graphOf parsed policy) policy {} = outcome at finished
  obtain ⟨state, stopped⟩ := outcome
  cases finished
  rfl

theorem graphOf_unambiguous (parsed : ParsedDocuments) (policy : Policy) :
    (graphOf parsed policy).Unambiguous :=
  (CallGraph.ofRecords_over (collected_allOver parsed) policy).unambiguous
    (collected_names parsed).1

/-- A call of the graph is a call in a declaration of the caller. -/
theorem invokes_of_calls {parsed : ParsedDocuments} {policy : Policy} {caller callee : Symbol}
    (symbol : caller ∈ (graphOf parsed policy).symbols)
    (calls : (graphOf parsed policy).Calls caller callee) : Invokes parsed caller callee := by
  have fromTable := collected_allOver parsed
  obtain ⟨record, member, same, _, target⟩ := CallGraph.calls_ofRecords_iff.mp calls
  have equal : record.caller = caller := (collected_names parsed).1.eq_of_index
    (fromTable record member _ List.mem_cons_self)
    (CallGraph.ofRecords_over fromTable policy _ symbol) same
  obtain ⟨info, declaration, declares, named⟩ := exists_declaration member
  exact ⟨info, declaration, declares, equal ▸ named.caller, (mem_targets_iff named).mp target⟩

/-- A call in a declaration is a call of the graph, if the policy lets the caller through. -/
theorem Invokes.calls {parsed : ParsedDocuments} {policy : Policy} {caller callee : Symbol}
    (invokes : Invokes parsed caller callee) (regarded : policy.ignores caller = false) :
    (graphOf parsed policy).Calls caller callee := by
  obtain ⟨info, declaration, declares, symbol, resolves⟩ := invokes
  obtain ⟨record, member, named⟩ := exists_record declares
  have equal : record.caller = caller := Option.some.inj (named.caller.symm.trans symbol)
  exact CallGraph.calls_ofRecords_iff.mpr ⟨record, member, congrArg Symbol.index equal,
    equal ▸ regarded, (mem_targets_iff named).mpr resolves⟩

theorem Invokes.isDeclared {parsed : ParsedDocuments} {caller callee : Symbol}
    (invokes : Invokes parsed caller callee) : IsDeclared parsed caller := by
  obtain ⟨info, declaration, declares, symbol, _⟩ := invokes
  exact ⟨info, declaration, declares, symbol⟩

/-! ## The evidence -/

/-- What the documents and the policy have to offer for a chain that runs from the first
method through the others and back: the methods are distinct and declared, the policy lets
them through, and each has a call that resolves to the next. -/
structure Evidence (parsed : ParsedDocuments) (policy : Policy) (first : Symbol)
    (rest : List Symbol) : Prop where
  distinct : (first :: rest).Nodup
  declared : ∀ method ∈ first :: rest, IsDeclared parsed method
  inScope : ∀ method ∈ first :: rest, Text.startsWith policy.scope method.key.moduleName = true
  unlisted : ∀ method ∈ first :: rest, method.qualifiedName ∉ policy.ignored
  invoked : List.IsChain (Invokes parsed) (first :: rest ++ [first])

/-- A cycle of the graph has its evidence. -/
theorem evidence_of_isCycle {parsed : ParsedDocuments} {policy : Policy} {first : Symbol}
    {rest : List Symbol} (cycle : (graphOf parsed policy).IsCycle first rest) :
    Evidence parsed policy first rest := by
  have regarded : ∀ method ∈ first :: rest, policy.ignores method = false := fun _ member =>
    CallGraph.not_ignored_of_mem_callers_ofRecords
      (cycle.mem_callers (graphOf_unambiguous parsed policy) member)
  refine ⟨cycle.distinct, fun method member => ?_, fun method member => ?_,
    fun method member => ?_, ?_⟩
  · obtain ⟨next, _, calls⟩ := cycle.exists_next member
    exact (invokes_of_calls (cycle.mem_symbols member) calls).isDeclared
  · exact (Policy.ignores_eq_false.mp (regarded method member)).1
  · exact (Policy.ignores_eq_false.mp (regarded method member)).2
  · refine List.IsChain.imp ?_ (List.IsChain.iff_mem.mp cycle.calls)
    rintro caller callee ⟨member, _, calls⟩
    exact invokes_of_calls (cycle.mem_symbols (CallGraph.mem_of_mem_closed member)) calls

/-- Where there is evidence, the graph has a cycle of methods that the policy lets through. -/
theorem Evidence.isCycle {parsed : ParsedDocuments} {policy : Policy} {first : Symbol}
    {rest : List Symbol} (evidence : Evidence parsed policy first rest) :
    (graphOf parsed policy).IsCycle first rest ∧
      ∀ method ∈ first :: rest, policy.ignores method = false := by
  have regarded : ∀ method ∈ first :: rest, policy.ignores method = false :=
    fun method member =>
      Policy.ignores_eq_false.mpr ⟨evidence.inScope method member, evidence.unlisted method member⟩
  refine ⟨⟨evidence.distinct, ?_⟩, regarded⟩
  refine List.IsChain.imp ?_ (List.IsChain.iff_mem.mp evidence.invoked)
  rintro caller callee ⟨member, _, invokes⟩
  exact invokes.calls (regarded caller (CallGraph.mem_of_mem_closed member))

/-- **Every reported chain has its evidence in the documents.** An analysis fails only if the
solution cannot be read. Otherwise it returns chains, each of which has its evidence in the
documents; and it returns none only if there is no evidence for any. -/
theorem chains_have_evidence (policy : Policy) :
    (∀ (disk : Disk) (solution : Path), (run disk solution policy).value =
      match Workspace.readSolution disk solution with
      | .error error => .error (.load error)
      | .ok parsed => (ofDocuments parsed policy).value) ∧
    ∀ parsed : ParsedDocuments, ∃ chains, (ofDocuments parsed policy).value = .ok chains ∧
      (∀ chain ∈ chains, ∃ first rest, chain = chainOf (first :: rest ++ [first]) ∧
        Evidence parsed policy first rest) ∧
      (chains = [] → ∀ first rest, ¬ Evidence parsed policy first rest) := by
  refine ⟨fun disk solution => run_value disk solution policy, fun parsed =>
    ⟨_, ofDocuments_value parsed policy, ?_, ?_⟩⟩
  · intro chain reported
    obtain ⟨first, rest, named, cycle, _⟩ :=
      CallGraph.exists_cycle_of_mem_cycles (graphOf_unambiguous parsed policy) reported
    exact ⟨first, rest, named, evidence_of_isCycle cycle⟩
  · intro clean first rest evidence
    obtain ⟨cycle, regarded⟩ := evidence.isCycle
    exact CallGraph.cycles_ne_nil_of_recurrent (cycle.recurrent regarded)
      ⟨first, List.mem_cons_self⟩ clean

end Analysis

end CyclicCalls
