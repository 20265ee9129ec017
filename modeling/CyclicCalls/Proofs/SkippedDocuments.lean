import CyclicCalls.Proofs.DeclaredTargets
/-!
# Documents that cannot be read

A document that cannot be read is skipped. It keeps its number among the documents, but it
gets no entry in the index, and resolution looks at nothing but the modules of the index
(`Resolve.target_congr`). So taking the skipped documents out beforehand makes no difference.
The remaining documents get other numbers; the index then has the same modules and the same
number of entries (`SolutionIndex.Alike`), the keys of the records come in the same order
(`keysOf_readable`), and symbols are handed out for them as before.

Main statement: `skipped_documents_have_no_influence`.
-/

set_option autoImplicit false

namespace CyclicCalls

open Source Solution Index

/-! ## What resolution looks at -/

namespace Resolve

variable {first second : SolutionIndex} (same : first.modules = second.modules)

include same

theorem module?_congr : first.module? = second.module? := by
  funext name
  simp only [SolutionIndex.module?, same]

theorem isModule_congr : first.isModule = second.isModule := by
  funext name
  simp only [SolutionIndex.isModule, same]

theorem memberOf_congr : memberOf first = memberOf second := by
  funext steps
  induction steps with
  | zero => rfl
  | succ steps ih =>
      funext moduleName member
      rw [memberOf, memberOf, ih, module?_congr same, isModule_congr same]

theorem expression_congr : expression first = expression second := by
  funext steps info given
  fun_induction expression first steps info given with
  | case1 id => simp only [expression, memberOf_congr same]
  | case2 value attr ih => simp only [expression, ih, memberOf_congr same]
  | case3 given notName notAttribute =>
      rw [expression]
      · exact notName
      · exact notAttribute

theorem basesOf_congr : basesOf first = basesOf second := by
  funext info
  simp only [basesOf, module?_congr same, expression_congr same]

theorem ancestorsFrom_congr : ancestorsFrom first = ancestorsFrom second := by
  funext visits
  induction visits with
  | zero => rfl
  | succ visits ih =>
      funext pending seen
      simp only [ancestorsFrom, ih, basesOf_congr same]

theorem methodOf_congr : methodOf first = methodOf second := by
  funext info name skipSelf
  simp only [methodOf, definingClass?, ancestors, ancestorsFrom_congr same,
    SolutionIndex.classCount, same]

theorem calledEntity_congr : calledEntity first = calledEntity second := by
  funext entity
  unfold calledEntity
  simp only [methodOf_congr same]

/-- **Resolution looks at the modules of the index only.** -/
theorem target_congr : target first = target second := by
  funext info declaration call
  unfold target calledAttribute calledMember
  simp only [expression_congr same, memberOf_congr same, methodOf_congr same,
    calledEntity_congr same]

end Resolve

/-! ## Indexes that differ in the numbers of documents -/

namespace Index

/-- The same document with the same statements, perhaps under another number. -/
structure ReadDocument.Renumbered (read other : ReadDocument) : Prop where
  document : read.document = other.document
  statements : read.statements = other.statements

/-- What documents declare does not depend on their numbers. -/
theorem map_snd_modulesFrom {reads others : List ReadDocument}
    (renumbered : List.Forall₂ ReadDocument.Renumbered reads others) (entry : Nat) :
    (modulesFrom entry reads).map (·.2) = (modulesFrom entry others).map (·.2) := by
  induction renumbered generalizing entry with
  | nil => rfl
  | cons same _ ih => simp only [modulesFrom, List.map_cons, ih, same.document, same.statements]

namespace SolutionIndex

/-- Indexes with the same modules and the same number of entries. Which document a module was
found in does not matter. -/
structure Alike (first second : SolutionIndex) : Prop where
  modules : first.modules = second.modules
  entries : first.entries = second.entries

theorem Alike.add {first second : SolutionIndex} (alike : Alike first second) (number other : Nat)
    (document : Document) (statements : List Stmt) :
    Alike (first.add number document statements).value
      (second.add other document statements).value := by
  rw [add_value, add_value]
  constructor
  · simp only [alike.modules, alike.entries]
  · simp only [alike.entries]

theorem Alike.addAll {first second : SolutionIndex} (alike : Alike first second)
    {reads others : List ReadDocument}
    (renumbered : List.Forall₂ ReadDocument.Renumbered reads others) :
    Alike (SolutionIndex.addAll reads first).value (SolutionIndex.addAll others second).value := by
  induction renumbered generalizing first second with
  | nil => exact alike
  | @cons read other _ _ same _ ih =>
      rw [SolutionIndex.addAll, SolutionIndex.addAll, Logged.value_bind, Logged.value_bind,
        same.document, same.statements]
      exact ih (alike.add read.number other.number other.document other.statements)

end SolutionIndex

end Index

/-! ## Documents from left to right -/

/-- The documents that could be read. -/
def readable (parsed : ParsedDocuments) : ParsedDocuments :=
  parsed.filter (fun entry => entry.2.isSome)

/-- Skipped documents leave gaps in the numbers and nothing else. -/
theorem renumbered_readable (parsed : ParsedDocuments) (start other : Nat) :
    List.Forall₂ ReadDocument.Renumbered (readDocuments start (readable parsed))
      (readDocuments other parsed) := by
  induction parsed generalizing start other with
  | nil => exact .nil
  | cons entry later ih =>
      obtain ⟨document, statements⟩ := entry
      cases statements with
      | none => exact ih start (other + 1)
      | some statements => exact .cons ⟨rfl, rfl⟩ (ih (start + 1) (other + 1))

/-- No document below the first number has a module. -/
theorem lookup_modulesFrom_eq_none {entry start number : Nat} {parsed : ParsedDocuments}
    (below : number < start) :
    (modulesFrom entry (readDocuments start parsed)).lookup number = none := by
  cases found : (modulesFrom entry (readDocuments start parsed)).lookup number with
  | none => rfl
  | some info =>
      obtain ⟨_, read, member, rfl, _⟩ := exists_of_mem_modulesFrom (mem_of_lookup found)
      obtain ⟨position, numbered, _⟩ := exists_of_mem_readDocuments member
      omega

/-- Going through the numbers of documents gives the modules in the order of the documents. -/
theorem filterMap_lookup_modulesFrom (entry start : Nat) (parsed : ParsedDocuments) :
    (List.range' start parsed.length).filterMap
        (fun number => (modulesFrom entry (readDocuments start parsed)).lookup number) =
      (modulesFrom entry (readDocuments start parsed)).map (·.2) := by
  induction parsed generalizing entry start with
  | nil => rfl
  | cons document later ih =>
      obtain ⟨document, statements⟩ := document
      rw [List.length_cons, List.range'_succ]
      cases statements with
      | none =>
          have skipped : (modulesFrom entry (readDocuments (start + 1) later)).lookup start = none :=
            lookup_modulesFrom_eq_none (Nat.lt_succ_self start)
          simp only [readDocuments, List.filterMap_cons, skipped]
          exact ih entry (start + 1)
      | some statements =>
          simp only [readDocuments, modulesFrom, List.map_cons, List.filterMap_cons,
            List.lookup_cons_self, ← ih (entry + 1) (start + 1)]
          congr 1
          refine List.filterMap_congr fun number among => ?_
          have above : start < number := (List.mem_range'_1.mp among).1
          rw [lookup_cons, if_neg (Nat.ne_of_gt above)]

namespace Analysis

theorem ofDocument?_opened (parsed : ParsedDocuments) (number : Nat) :
    (opened parsed).index.ofDocument? number =
      (modulesFrom 0 (readDocuments 0 parsed)).lookup number := by
  have rising := pairwise_number_readDocuments 0 parsed
  have distinct : ((modulesFrom 0 (readDocuments 0 parsed)).map (·.1)).Nodup := by
    rw [map_fst_modulesFrom]
    exact List.pairwise_map.mpr (rising.imp Nat.ne_of_lt)
  ext info
  rw [ofDocument?_eq_some_iff, opened_index, SolutionIndex.mem_byDocument]
  exact ⟨lookup_of_mem distinct, mem_of_lookup⟩

/-! ## The keys of the records -/

/-- The keys of the records of all declarations of the documents. -/
def keysOf (parsed : ParsedDocuments) : List KeyRecord :=
  (List.range parsed.length).flatMap (Workspace.keyRecords (opened parsed).index)

/-- The keys come module by module. -/
theorem keysOf_eq (parsed : ParsedDocuments) :
    keysOf parsed = ((modulesFrom 0 (readDocuments 0 parsed)).map (·.2)).flatMap (fun info =>
      info.declarations.map (Workspace.keyRecord (opened parsed).index info)) := by
  rw [← filterMap_lookup_modulesFrom, List.filterMap_eq_flatMap_toList, List.flatMap_assoc, keysOf,
    List.range_eq_range']
  refine List.flatMap_congr fun number _ => ?_
  rw [Workspace.keyRecords, Workspace.declared, ofDocument?_opened]
  cases (modulesFrom 0 (readDocuments 0 parsed)).lookup number with
  | none => rfl
  | some info => simp

theorem opened_readable (parsed : ParsedDocuments) :
    (opened (readable parsed)).index.Alike (opened parsed).index := by
  rw [opened_index, opened_index]
  exact SolutionIndex.Alike.addAll ⟨rfl, rfl⟩ (renumbered_readable parsed 0 0)

/-- **Skipped documents leave no trace in the keys.** -/
theorem keysOf_readable (parsed : ParsedDocuments) : keysOf (readable parsed) = keysOf parsed := by
  have resolved : Workspace.keyRecord (opened (readable parsed)).index =
      Workspace.keyRecord (opened parsed).index := by
    funext info declaration
    simp only [Workspace.keyRecord, Resolve.target_congr (opened_readable parsed).modules]
  rw [keysOf_eq, keysOf_eq, map_snd_modulesFrom (renumbered_readable parsed 0 0), resolved]

/-! ## Records with symbols of a given table -/

/-- The records of all declarations of the documents when a given table hands out the symbols,
and the workspace after them. -/
def collectedWith (table : SymbolTable) (parsed : ParsedDocuments) : List CallRecord × Workspace :=
  (Workspace.recordDocuments (List.range parsed.length)
    (Workspace.takeIn parsed { table := table }).value).value

/-- The table hands out symbols for the keys from left to right. -/
theorem internRecords_keysOf (table : SymbolTable) (parsed : ParsedDocuments) :
    table.internRecords (keysOf parsed) =
      ((collectedWith table parsed).1, (collectedWith table parsed).2.table) := by
  obtain ⟨fixed, resolved, _⟩ := Workspace.takeIn_keeps parsed { table := table }
  have index : (Workspace.takeIn parsed { table := table }).value.index = (opened parsed).index := by
    rw [Workspace.takeIn_index, opened_index]
    rfl
  have coherent : (Workspace.takeIn parsed { table := table }).value.Coherent := by
    intro number info listed
    rw [resolved] at listed
    exact nomatch listed
  have interned := (Workspace.recordDocuments_recorded coherent (List.range parsed.length)).interned
  rw [fixed, index] at interned
  exact interned

/-- Collecting the records of a solution collects those of its documents. -/
theorem collect_value (table : SymbolTable) (disk : Disk) (solution : Path) :
    (({ table := table } : Workspace).collect disk solution.text).value =
      (Workspace.readSolution disk solution).map (collectedWith table) := by
  simp only [Workspace.collect, Workspace.openSolution, Workspace.readSolution, Logged.value_bind]
  cases (openAt disk solution.text).value with
  | error error => rfl
  | ok projects =>
      simp only [Logged.value_bind, Workspace.addDocuments_value]
      cases Workspace.readAll disk (projects.flatMap (·.documents)) with
      | error error => rfl
      | ok parsed =>
          obtain ⟨_, _, documents⟩ := Workspace.takeIn_keeps parsed { table := table }
          simp only [Except.map, Except.mapError, Logged.value_bind, Logged.value_pure,
            collectedWith, documents, List.nil_append, List.length_nil, Nat.sub_zero,
            List.range_eq_range']

theorem collectedWith_readable (table : SymbolTable) (parsed : ParsedDocuments) :
    (collectedWith table (readable parsed)).1 = (collectedWith table parsed).1 ∧
      (collectedWith table (readable parsed)).2.table = (collectedWith table parsed).2.table := by
  have interned := internRecords_keysOf table (readable parsed)
  rw [keysOf_readable, internRecords_keysOf] at interned
  exact ⟨(congrArg Prod.fst interned).symm, (congrArg Prod.snd interned).symm⟩

theorem ofDocuments_readable (parsed : ParsedDocuments) (policy : Policy) :
    (ofDocuments (readable parsed) policy).value = (ofDocuments parsed policy).value := by
  have records : (collected (readable parsed)).1 = (collected parsed).1 :=
    (collectedWith_readable {} parsed).1
  rw [ofDocuments_value, ofDocuments_value, graphOf, graphOf, records]

/-- Taking out the skipped documents project by project. -/
theorem flatten_map_readable (projects : List ParsedDocuments) :
    (projects.map readable).flatten = readable projects.flatten := by
  rw [readable, List.filter_flatten]
  rfl

/-- **Skipped documents have no influence.** Take the documents that cannot be read out of all
projects. Whatever table hands out the symbols, the records stay the same, with the numbers of
their symbols and in the same order, and so do the table and the chains that any policy leaves.
Every name finds the module that it found before, and every call resolves as before. What is
collected and reported of a solution is therefore what its readable documents give. -/
theorem skipped_documents_have_no_influence :
    (∀ (projects : List ParsedDocuments) (table : SymbolTable),
      (collectedWith table (projects.map readable).flatten).1 =
          (collectedWith table projects.flatten).1 ∧
        (collectedWith table (projects.map readable).flatten).2.table =
          (collectedWith table projects.flatten).2.table) ∧
    (∀ (projects : List ParsedDocuments) (policy : Policy),
      (ofDocuments (projects.map readable).flatten policy).value =
        (ofDocuments projects.flatten policy).value) ∧
    (∀ (projects : List ParsedDocuments) (name : String),
      (opened (projects.map readable).flatten).index.module? name =
          (opened projects.flatten).index.module? name ∧
        (opened (projects.map readable).flatten).index.isModule name =
          (opened projects.flatten).index.isModule name) ∧
    (∀ (projects : List ParsedDocuments) (info : ModuleInfo) (declaration : Declaration)
      (call : Call),
      Resolve.target (opened (projects.map readable).flatten).index info declaration call =
        Resolve.target (opened projects.flatten).index info declaration call) ∧
    ∀ (disk : Disk) (solution : Path),
      (∀ table : SymbolTable,
        (({ table := table } : Workspace).collect disk solution.text).value.map (·.1) =
          (Workspace.readSolution disk solution).map
            (fun parsed => (collectedWith table (readable parsed)).1)) ∧
      ∀ policy : Policy, (run disk solution policy).value =
        match Workspace.readSolution disk solution with
        | .error error => .error (.load error)
        | .ok parsed => (ofDocuments (readable parsed) policy).value := by
  simp only [flatten_map_readable]
  refine ⟨fun projects table => collectedWith_readable table projects.flatten,
    fun projects => ofDocuments_readable projects.flatten, fun projects name => ?_,
    fun projects info declaration call => ?_, fun disk solution => ⟨fun table => ?_, ?_⟩⟩
  · have modules := (opened_readable projects.flatten).modules
    exact ⟨congrFun (Resolve.module?_congr modules) name,
      congrFun (Resolve.isModule_congr modules) name⟩
  · rw [Resolve.target_congr (opened_readable projects.flatten).modules]
  · rw [collect_value]
    cases Workspace.readSolution disk solution with
    | error error => rfl
    | ok parsed => exact congrArg Except.ok (collectedWith_readable table parsed).1.symm
  · intro policy
    rw [run_value]
    cases Workspace.readSolution disk solution with
    | error error => rfl
    | ok parsed => exact (ofDocuments_readable parsed policy).symm

end Analysis

end CyclicCalls
