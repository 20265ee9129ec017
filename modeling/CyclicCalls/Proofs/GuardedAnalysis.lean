import CyclicCalls.Proofs.GuardedResolution
import CyclicCalls.Proofs.RefusedRequests
import CyclicCalls.Proofs.SeparatedText
import CyclicCalls.Proofs.TrailDiscipline
/-!
# An analysis with guarded steps

An analysis goes through five parts: finding the documents, entering them into the index,
recording and resolving calls, building the graph, and searching it. In each part there are
steps that rely on what earlier ones did. A directory has to lie below the source root it is
named by, a module name has to have a first part, a document has to be indexed when its calls
are resolved, a graph must not be frozen while it grows, and the trail has to be empty after
each root.

`Analysis.run` is written with total operations. `Analysis.guardedRun` is the same analysis with
every such step written so that it fails when it cannot be done (`Fault`). The two agree, and
both fail only where the solution cannot be loaded (`fails_to_load_or_is_refused`). Each part
has its own lemma: what it does with guarded steps is what it does without.

Loading fails in two ways. Nearly always the reason is reported: nothing stands at the path, or a
document cannot be read. But an error of the system that comes up while the projects are looked
for is passed on as it is. The negative control is a path that is too long for the system
(`overlong_solution_is_refused`).
-/

set_option autoImplicit false

namespace CyclicCalls

open Source Solution Index

/-- What can go wrong in an analysis. -/
inductive Analysis.Fault where
  /-- The solution cannot be loaded. -/
  | load (error : LoadError)
  /-- The system refuses a request. -/
  | system (error : SystemError)
  /-- A directory is named by a source root that it does not lie below. -/
  | outside (directory : Path)
  /-- The statements of a document are used, and there are none. -/
  | noStatements (document : Document)
  /-- The first part of a name without parts is asked for. -/
  | noPart (name : String)
  /-- The module of a name is fetched, and the name is not bound. -/
  | unbound (name : String)
  /-- A document is to be resolved that was not indexed. -/
  | notIndexed (number : Nat)
  | resolution (fault : Resolve.Fault)
  | graph (error : CallGraphError)
  | search (fault : Search.Fault)

open Analysis (Fault)

/-- A solution that cannot be loaded, as a fault. -/
def Analysis.Fault.ofLoad : LoadFailure → Fault
  | .reported error => .load error
  | .refused error => .system error

/-! ## Finding documents -/

/-- The names that lead from a directory to a path below it. -/
def Path.relativeTo? (path directory : Path) : Option (List String) :=
  if path.anchor = directory.anchor ∧ directory.parts <+: path.parts then
    some (path.parts.drop directory.parts.length)
  else none

/-- The path that is reached from a directory by some names. -/
def Path.descend (directory : Path) (names : List String) : Path :=
  { directory with parts := directory.parts ++ names }

theorem Path.relativeTo?_descend (directory : Path) (names : List String) :
    (directory.descend names).relativeTo? directory = some names := by
  simp [relativeTo?, descend]

theorem Path.descend_child (directory : Path) (names : List String) (name : String) :
    (directory.descend names).child name = directory.descend (names ++ [name]) := by
  simp [child, descend]

namespace Solution

mutual

/-- The modules in a directory and below it. The directory is named by its way from the source
root. -/
def guardedModulesIn (sourceRoot directory : Path) : FileTree → Except Fault (List ModuleFile)
  | .file _ => .ok []
  | .directory entries => do
    let parts ← demand (.outside directory) (directory.relativeTo? sourceRoot)
    let below ← guardedModulesBelow sourceRoot directory entries
    .ok (ownModules directory parts entries ++ (byName below).flatMap (·.2))

/-- The subdirectories that are searched, each with the modules found in it. -/
def guardedModulesBelow (sourceRoot directory : Path) :
    List (String × FileTree) → Except Fault (List (String × List ModuleFile))
  | [] => .ok []
  | (name, child) :: entries =>
    if child.isDirectory && !isExcluded name then do
      let inside ← guardedModulesIn sourceRoot (directory.child name) child
      let others ← guardedModulesBelow sourceRoot directory entries
      .ok ((name, inside) :: others)
    else guardedModulesBelow sourceRoot directory entries

end

mutual

theorem guardedModulesIn_eq (sourceRoot : Path) : (tree : FileTree) → (parts : List String) →
    guardedModulesIn sourceRoot (sourceRoot.descend parts) tree =
      .ok (modulesIn (sourceRoot.descend parts) parts tree)
  | .file _, _ => by
      rw [guardedModulesIn, modulesIn]
  | .directory entries, parts => by
      rw [guardedModulesIn, modulesIn, Path.relativeTo?_descend, demand_some, ok_bind,
        guardedModulesBelow_eq sourceRoot entries parts, ok_bind]

theorem guardedModulesBelow_eq (sourceRoot : Path) : (entries : List (String × FileTree)) →
    (parts : List String) →
    guardedModulesBelow sourceRoot (sourceRoot.descend parts) entries =
      .ok (modulesBelow (sourceRoot.descend parts) parts entries)
  | [], _ => by
      rw [guardedModulesBelow, modulesBelow]
  | (name, child) :: entries, parts => by
      rw [guardedModulesBelow, modulesBelow, Path.descend_child,
        guardedModulesIn_eq sourceRoot child (parts ++ [name]),
        guardedModulesBelow_eq sourceRoot entries parts]
      split
      · rfl
      · rfl

end

/-- The modules below a source root, ordered by name. -/
def guardedModules (disk : Disk) (sourceRoot : Path) : Except Fault (List ModuleFile) :=
  match disk.files.locate? sourceRoot with
  | none => .ok []
  | some root => do
    let found ← guardedModulesIn sourceRoot sourceRoot (disk.visible sourceRoot root)
    .ok (found.mergeSort (fun a b => Text.le a.moduleName b.moduleName))

/-- The project at a directory. -/
def guardedLoadProject (disk : Disk) (root : Path) : Except Fault Project := do
  let sourceRoot ← (sourceRootOf disk root).mapError .system
  let found ← guardedModules disk sourceRoot
  let documents := found.map (fun file =>
    { path := file.path, moduleName := file.moduleName, isPackage := file.isPackage : Document })
  .ok { name := root.name, root, sourceRoot, documents }

/-- The projects of a solution directory with their documents. -/
def guardedOpenDirectory (disk : Disk) (given : String) (entries : List (String × FileTree)) :
    Except Fault (List Project) := do
  let roots ← (projectRoots disk (Path.ofText given) entries).mapError .system
  let projects ← roots.mapM (guardedLoadProject disk)
  if projects.all (fun project => project.documents.isEmpty) then
    .error (.load (.noSources given))
  else .ok projects

/-- The projects of a solution with their documents. -/
def guardedOpenAt (disk : Disk) (given : String) : Except Fault (List Project) := do
  let path := Path.ofText given
  match ← (disk.look path).mapError .system with
  | none => .error (.load (.missing given))
  | some (.file _) =>
    match pythonStem? path.name with
    | none => .error (.load (.notPython given))
    | some stem =>
      .ok [{ name := stem, root := path.parent, sourceRoot := path.parent,
             documents := [{ path, moduleName := stem }] }]
  | some (.directory entries) => guardedOpenDirectory disk given entries

theorem guardedModules_eq (disk : Disk) (sourceRoot : Path) :
    guardedModules disk sourceRoot = .ok (modules disk sourceRoot) := by
  unfold guardedModules modules
  cases disk.files.locate? sourceRoot with
  | none => rfl
  | some root =>
      have found := guardedModulesIn_eq sourceRoot (disk.visible sourceRoot root) []
      simp only [Path.descend, List.append_nil] at found
      simp only [found, ok_bind]

theorem guardedLoadProject_eq (disk : Disk) (root : Path) :
    guardedLoadProject disk root = (loadProject disk root).value.mapError .system := by
  unfold guardedLoadProject loadProject
  cases sourceRootOf disk root with
  | error error => rfl
  | ok sourceRoot =>
      simp only [Except.mapError, ok_bind, guardedModules_eq]
      rfl

theorem guardedLoadProjects_eq (disk : Disk) (roots : List Path) :
    roots.mapM (guardedLoadProject disk) = (loadProjects disk roots).value.mapError .system := by
  induction roots with
  | nil => rfl
  | cons root roots ih =>
      rw [List.mapM_cons, guardedLoadProject_eq, ih, loadProjects, Logged.value_bind]
      cases (loadProject disk root).value with
      | error error => rfl
      | ok project =>
          simp only [Logged.value_bind, Logged.value_pure]
          cases (loadProjects disk roots).value with
          | error error => rfl
          | ok projects => rfl

theorem guardedOpenDirectory_eq (disk : Disk) (given : String)
    (entries : List (String × FileTree)) :
    guardedOpenDirectory disk given entries =
      (openDirectory disk given entries).value.mapError .ofLoad := by
  unfold guardedOpenDirectory openDirectory
  cases projectRoots disk (Path.ofText given) entries with
  | error error => rfl
  | ok roots =>
      simp only [Except.mapError, ok_bind, guardedLoadProjects_eq, Logged.value_bind]
      cases (loadProjects disk roots).value with
      | error error => rfl
      | ok projects =>
          simp only [ok_bind]
          split
          · rfl
          · rfl

theorem guardedOpenAt_eq (disk : Disk) (given : String) :
    guardedOpenAt disk given = (openAt disk given).value.mapError .ofLoad := by
  simp only [guardedOpenAt, openAt]
  cases disk.look (Path.ofText given) with
  | error error => rfl
  | ok located =>
      cases located with
      | none => rfl
      | some found =>
          cases found with
          | directory entries => exact guardedOpenDirectory_eq disk given entries
          | file content =>
              simp only [Except.mapError, ok_bind]
              cases pythonStem? (Path.ofText given).name with
              | none => rfl
              | some stem => rfl

end Solution

/-! ## Entering documents -/

namespace Index

/-- The name that an import of a module binds, and what it is bound to. -/
def guardedModuleBinding (item : Alias) : Except Fault (String × ImportBinding) :=
  match item.asName with
  | some bound => .ok (bound, { moduleName := item.name })
  | none => do
    let top ← demand (.noPart item.name) (Text.split "." item.name).head?
    .ok (top, { moduleName := top })

/-- The names bound by the imports of a scope. -/
def guardedImportsOf (document : Document) :
    List Outline → Except Fault (List (String × ImportBinding))
  | [] => .ok []
  | .importModules names :: rest => do
    let own ← names.mapM guardedModuleBinding
    let others ← guardedImportsOf document rest
    .ok (own ++ others)
  | .importFrom moduleName names level :: rest =>
    match importedModule? document moduleName level with
    | some found => do
      let others ← guardedImportsOf document rest
      .ok (memberBindings found names ++ others)
    | none => guardedImportsOf document rest
  | _ :: rest => guardedImportsOf document rest

/-- What a document declares, with guarded imports. -/
def guardedModuleInfo (entry : Nat) (document : Document) (statements : List Stmt) :
    Except Fault ModuleInfo := do
  let imports ← guardedImportsOf document (Outline.ofBody statements)
  .ok { (moduleInfo entry document statements).value with imports := Bindings.ofList imports }

/-- The module that a name is bound to before it is bound again, for the report. -/
def SolutionIndex.guardedEarlier (index : SolutionIndex) (name : String) :
    Except Fault (Option ModuleInfo) :=
  if index.modules.contains name then (demand (.unbound name) (index.module? name)).map some
  else .ok none

/-- Enter what a document declares. -/
def SolutionIndex.guardedAdd (index : SolutionIndex) (number : Nat) (document : Document)
    (statements : List Stmt) : Except Fault SolutionIndex := do
  let info ← guardedModuleInfo index.entries document statements
  let _ ← index.guardedEarlier info.name
  .ok {
    modules := index.modules.bind info.name info
    byDocument := (number, info) :: index.byDocument
    entries := index.entries + 1 }

theorem guardedModuleBindings_eq (names : List Alias) :
    names.mapM guardedModuleBinding = .ok (moduleBindings names) := by
  have first (name : String) : demand (Fault.noPart name) (Text.split "." name).head? =
      .ok ((Text.split "." name).headD "") := by
    obtain ⟨top, others, parts⟩ := List.exists_cons_of_ne_nil (Text.split_ne_nil "." name)
    rw [parts]
    rfl
  rw [moduleBindings]
  refine Eq.trans (congrArg (names.mapM ·) (funext fun item => ?_)) List.mapM_pure
  unfold guardedModuleBinding
  cases item.asName with
  | some bound => rfl
  | none =>
      rw [first]
      rfl

theorem guardedImportsOf_eq (document : Document) (outlines : List Outline) :
    guardedImportsOf document outlines = .ok (importsOf document outlines).value := by
  fun_induction importsOf document outlines with
  | case1 => rfl
  | case2 names rest ih =>
      rw [guardedImportsOf, guardedModuleBindings_eq, ih]
      rfl
  | case3 rest moduleName names level found imported ih =>
      rw [guardedImportsOf, imported, ih]
      rfl
  | case4 rest moduleName names level outside ih =>
      rw [guardedImportsOf, outside, ih]
      rfl
  | case5 outline rest notModules notFrom ih =>
      rw [guardedImportsOf, ih]
      · exact notModules
      · exact notFrom

theorem guardedModuleInfo_eq (entry : Nat) (document : Document) (statements : List Stmt) :
    guardedModuleInfo entry document statements =
      .ok (moduleInfo entry document statements).value := by
  rw [guardedModuleInfo, guardedImportsOf_eq]
  rfl

theorem SolutionIndex.guardedEarlier_eq (index : SolutionIndex) (name : String) :
    index.guardedEarlier name = .ok (index.module? name) := by
  unfold guardedEarlier module? Bindings.contains
  cases index.modules.find? name with
  | none => rfl
  | some earlier => rfl

theorem SolutionIndex.guardedAdd_eq (index : SolutionIndex) (number : Nat) (document : Document)
    (statements : List Stmt) :
    index.guardedAdd number document statements =
      .ok (index.add number document statements).value := by
  rw [guardedAdd, guardedModuleInfo_eq, ok_bind, guardedEarlier_eq, ok_bind, add_value]
  rfl

end Index

namespace Workspace

/-- Take in a document. Its statements are used when it has some. -/
def guardedAddDocument (workspace : Workspace) (document : Document)
    (statements : Option (List Stmt)) : Except Fault Workspace :=
  let documents := workspace.documents ++ [(document, statements)]
  if statements.isSome then do
    let body ← demand (.noStatements document) statements
    let index ← workspace.index.guardedAdd workspace.documents.length document body
    .ok { workspace with documents := documents, index := index }
  else .ok { workspace with documents := documents }

/-- Read and take in documents from left to right. -/
def guardedAddDocuments (disk : Disk) :
    List Document → Workspace → Except Fault Workspace
  | [], workspace => .ok workspace
  | document :: documents, workspace => do
    let statements ← (readDocument disk document).mapError .load
    let next ← workspace.guardedAddDocument document statements
    guardedAddDocuments disk documents next

theorem guardedAddDocument_eq (workspace : Workspace) (document : Document)
    (statements : Option (List Stmt)) :
    workspace.guardedAddDocument document statements =
      .ok (workspace.addDocument document statements).value := by
  cases statements with
  | none => rfl
  | some body =>
      simp only [guardedAddDocument, Option.isSome_some, if_true, demand_some, ok_bind,
        SolutionIndex.guardedAdd_eq]
      rfl

theorem guardedAddDocuments_eq (disk : Disk) (documents : List Document)
    (workspace : Workspace) :
    guardedAddDocuments disk documents workspace =
      (addDocuments disk documents workspace).value.mapError .load := by
  induction documents generalizing workspace with
  | nil => rfl
  | cons document documents ih =>
      rw [guardedAddDocuments, addDocuments]
      cases readDocument disk document with
      | error error => rfl
      | ok statements =>
          simp only [Except.mapError, ok_bind, guardedAddDocument_eq, ih, Logged.value_bind]

/-! ## Recording calls -/

/-- The module as which a document is resolved, which has to be there. -/
def guardedModuleOf (workspace : Workspace) (number : Nat) :
    Except Fault (ModuleInfo × Workspace) :=
  demand (.notIndexed number) (workspace.moduleOf? number)

/-- The targets of calls in a declaration of a document. The module of the document is fetched
for every call. -/
def guardedTargets (number : Nat) (declaration : Declaration) :
    List Call → Workspace → Except Fault (List (Option Symbol) × Workspace)
  | [], workspace => .ok ([], workspace)
  | call :: calls, workspace => do
    let (info, next) ← workspace.guardedModuleOf number
    let outcome := Resolve.guardedTarget next.index (some info) declaration call
    match ← outcome.mapError .resolution with
    | some key =>
      let (symbol, table) := next.table.intern key
      let (others, last) ← guardedTargets number declaration calls { next with table := table }
      .ok (some symbol :: others, last)
    | none =>
      let (others, last) ← guardedTargets number declaration calls next
      .ok (none :: others, last)

/-- The record of a declaration of a document. The module of the document is fetched for the
declaration. -/
def guardedRecord (number : Nat) (declaration : Declaration) (workspace : Workspace) :
    Except Fault (CallRecord × Workspace) := do
  let (_, next) ← workspace.guardedModuleOf number
  let (caller, table) := next.table.intern declaration.key
  let (found, last) ← guardedTargets number declaration declaration.calls
    { next with table := table }
  .ok (⟨caller, found⟩, last)

/-- The records of declarations of a document from left to right. -/
def guardedRecordAll (number : Nat) :
    List Declaration → Workspace → Except Fault (List CallRecord × Workspace)
  | [], workspace => .ok ([], workspace)
  | declaration :: declarations, workspace => do
    let (first, next) ← guardedRecord number declaration workspace
    let (others, last) ← guardedRecordAll number declarations next
    .ok (first :: others, last)

/-- The records of documents from left to right. -/
def guardedRecordDocuments :
    List Nat → Workspace → Except Fault (List CallRecord × Workspace)
  | [], workspace => .ok ([], workspace)
  | number :: numbers, workspace => do
    let (first, next) ← guardedRecordAll number (workspace.declarations number) workspace
    let (others, last) ← guardedRecordDocuments numbers next
    .ok (first ++ others, last)

/-- A document is resolved as the module. -/
def Fixes (workspace : Workspace) (number : Nat) (info : ModuleInfo) : Prop :=
  workspace.resolved.lookup number = some info

variable {workspace : Workspace} {number : Nat} {info : ModuleInfo}

namespace Fixes

theorem withTable (fixes : workspace.Fixes number info) (table : SymbolTable) :
    Fixes { workspace with table := table } number info :=
  fixes

theorem guardedModuleOf_eq (fixes : workspace.Fixes number info) :
    workspace.guardedModuleOf number = .ok (info, workspace) := by
  unfold guardedModuleOf moduleOf?
  rw [fixes]
  rfl

/-- Once the module is fixed, only the table grows. -/
theorem guardedTargets_eq (fixes : workspace.Fixes number info) (declaration : Declaration)
    (caller : Symbol) (calls : List Call) :
    guardedTargets number declaration calls workspace =
      .ok ((targets workspace.index info declaration caller calls workspace.table).value.1,
        { workspace with table :=
          (targets workspace.index info declaration caller calls workspace.table).value.2 }) := by
  induction calls generalizing workspace with
  | nil => rfl
  | cons call calls ih =>
      simp only [guardedTargets, fixes.guardedModuleOf_eq, Resolve.guardedTarget_eq,
        Except.mapError, ok_bind, targets, Logged.value_bind]
      cases (Resolve.target workspace.index info declaration call).value with
      | none =>
          simp only [ih fixes, ok_bind]
          rfl
      | some key =>
          simp only [ih (fixes.withTable _), ok_bind]
          rfl

theorem guardedRecord_eq (fixes : workspace.Fixes number info) (declaration : Declaration) :
    guardedRecord number declaration workspace =
      .ok ((record workspace.index info declaration workspace.table).value.1,
        { workspace with table :=
          (record workspace.index info declaration workspace.table).value.2 }) := by
  simp only [guardedRecord, fixes.guardedModuleOf_eq, ok_bind,
    (fixes.withTable _).guardedTargets_eq declaration (workspace.table.intern declaration.key).1]
  rfl

theorem guardedRecordAll_eq (fixes : workspace.Fixes number info)
    (declarations : List Declaration) :
    guardedRecordAll number declarations workspace =
      .ok ((recordAll workspace.index info declarations workspace.table).value.1,
        { workspace with table :=
          (recordAll workspace.index info declarations workspace.table).value.2 }) := by
  induction declarations generalizing workspace with
  | nil => rfl
  | cons declaration declarations ih =>
      simp only [guardedRecordAll, fixes.guardedRecord_eq, ih (fixes.withTable _), ok_bind]
      rfl

end Fixes

/-- A document with declarations has a module, and it is fixed when it is first fetched. -/
theorem exists_fixes (declared : workspace.declarations number ≠ []) :
    ∃ info next, workspace.moduleOf? number = some (info, next) ∧ next.Fixes number info := by
  unfold moduleOf?
  cases fixed : workspace.resolved.lookup number with
  | some info => exact ⟨info, workspace, rfl, fixed⟩
  | none =>
      cases found : workspace.index.ofDocument? number with
      | some info => exact ⟨info, _, rfl, List.lookup_cons_self⟩
      | none =>
          rw [declarations, found] at declared
          exact absurd rfl declared

/-- A document that was not indexed has no declarations, so its module is never fetched. -/
theorem guardedRecordDocument_eq (workspace : Workspace) (number : Nat) :
    guardedRecordAll number (workspace.declarations number) workspace =
      .ok (workspace.recordDocument number).value := by
  unfold recordDocument
  cases declared : workspace.declarations number with
  | nil => rfl
  | cons declaration declarations =>
      obtain ⟨info, next, fetched, fixes⟩ :=
        exists_fixes (declared ▸ List.cons_ne_nil declaration declarations)
      -- From the first fetch on, all goes as in the workspace that has the module fixed.
      have same : workspace.guardedModuleOf number = next.guardedModuleOf number := by
        rw [fixes.guardedModuleOf_eq, guardedModuleOf, fetched, demand_some]
      have first : guardedRecordAll number (declaration :: declarations) workspace =
          guardedRecordAll number (declaration :: declarations) next := by
        simp only [guardedRecordAll, guardedRecord, same]
      rw [first, fixes.guardedRecordAll_eq, fetched]
      rfl

-- The fetch itself is a fault where nothing was indexed.
example : guardedModuleOf {} 0 = .error (.notIndexed 0) := rfl

theorem guardedRecordDocuments_eq (numbers : List Nat) (workspace : Workspace) :
    guardedRecordDocuments numbers workspace = .ok (recordDocuments numbers workspace).value := by
  induction numbers generalizing workspace with
  | nil => rfl
  | cons number numbers ih =>
      simp only [guardedRecordDocuments, guardedRecordDocument_eq, ih, ok_bind]
      rfl

end Workspace

/-! ## Building the graph -/

namespace CallGraph

/-- Take the targets of a record into the graph one by one. Each needs a graph that grows. -/
def guardedAddTargets (caller : Symbol) :
    List (Option Symbol) → CallGraph → Except CallGraphError CallGraph
  | [], graph => .ok graph
  | none :: targets, graph => guardedAddTargets caller targets graph
  | some callee :: targets, graph => do
    let next ← graph.addCall caller callee
    guardedAddTargets caller targets next

/-- Take one record into the graph, unless the policy leaves its caller out. -/
def guardedAddRecord (policy : Policy) (graph : CallGraph) (record : CallRecord) :
    Except CallGraphError CallGraph :=
  if policy.ignores record.caller then .ok graph
  else do
    let next ← graph.addCaller record.caller
    guardedAddTargets record.caller record.targets next

/-- The frozen graph of the records whose callers the policy lets through. -/
def guardedOfRecords (records : List CallRecord) (policy : Policy) :
    Except CallGraphError CallGraph := do
  let graph ← records.foldlM (guardedAddRecord policy) {}
  .ok graph.freeze

theorem extendRows_extendRows (caller : Symbol) (first second : List Symbol)
    (rows : List (Symbol × List Symbol)) :
    extendRows caller second (extendRows caller first rows) =
      extendRows caller (first ++ second) rows := by
  induction rows with
  | nil => simp [extendRows, Symbol.same]
  | cons row rows ih =>
      obtain ⟨other, known⟩ := row
      by_cases own : other.same caller
      · simp [extendRows, own]
      · simp [extendRows, own, ih]

theorem guardedAddTargets_eq {graph : CallGraph} (growing : graph.frozen = false)
    (caller : Symbol) (known : List Symbol) (targets : List (Option Symbol)) :
    guardedAddTargets caller targets (graph.extend caller known) =
      .ok (graph.extend caller (known ++ targets.filterMap id)) := by
  induction targets generalizing known with
  | nil => simp [guardedAddTargets]
  | cons target targets ih =>
      cases target with
      | none => simpa [guardedAddTargets] using ih known
      | some callee =>
          have added : (graph.extend caller known).addCall caller callee =
              .ok (graph.extend caller (known ++ [callee])) := by
            simp [addCall, extend, growing, extendRows_extendRows]
          rw [guardedAddTargets, added, ok_bind]
          simpa using ih (known ++ [callee])

theorem guardedAddRecord_eq (policy : Policy) {graph : CallGraph} (growing : graph.frozen = false)
    (record : CallRecord) :
    guardedAddRecord policy graph record = .ok (addRecord policy graph record) := by
  unfold guardedAddRecord addRecord
  split
  · rfl
  · rw [addCaller, growing]
    exact guardedAddTargets_eq growing record.caller [] record.targets

theorem frozen_addRecord (policy : Policy) (graph : CallGraph) (record : CallRecord) :
    (addRecord policy graph record).frozen = graph.frozen := by
  unfold addRecord
  split
  · rfl
  · rfl

theorem foldlM_guardedAddRecord (policy : Policy) (records : List CallRecord) {graph : CallGraph}
    (growing : graph.frozen = false) :
    records.foldlM (guardedAddRecord policy) graph =
      .ok (records.foldl (addRecord policy) graph) := by
  induction records generalizing graph with
  | nil => rfl
  | cons record records ih =>
      rw [List.foldlM_cons, guardedAddRecord_eq policy growing, List.foldl_cons]
      apply ih
      rw [frozen_addRecord, growing]

/-- A graph grows until it is frozen, and it is frozen last. -/
theorem guardedOfRecords_eq (records : List CallRecord) (policy : Policy) :
    guardedOfRecords records policy = .ok (ofRecords records policy) := by
  rw [guardedOfRecords, foldlM_guardedAddRecord policy records rfl]
  rfl

end CallGraph

/-! ## The whole analysis -/

namespace Analysis

/-- The chains of the solution at a path, with every step guarded. -/
def guardedRun (disk : Disk) (solution : Path) (policy : Policy) :
    Except Fault (List String) := do
  let projects ← guardedOpenAt disk solution.text
  let workspace ← Workspace.guardedAddDocuments disk (projects.flatMap (·.documents)) {}
  let (records, _) ← Workspace.guardedRecordDocuments
    (List.range workspace.documents.length) workspace
  let built ← (CallGraph.guardedOfRecords records policy).mapError .graph
  let final ← (Search.guardedRunFrom built policy built.callers {}).mapError .search
  .ok final.log.chains

theorem guardedRun_eq (disk : Disk) (solution : Path) (policy : Policy) :
    guardedRun disk solution policy =
      match Workspace.readSolution disk solution with
      | .error failure => .error (.ofLoad failure)
      | .ok parsed => .ok ((graphOf parsed policy).cycles policy) := by
  rw [guardedRun, guardedOpenAt_eq, Workspace.readSolution]
  cases (openAt disk solution.text).value with
  | error failure => rfl
  | ok projects =>
      simp only [Except.mapError, ok_bind, Workspace.guardedAddDocuments_eq,
        Workspace.addDocuments_value]
      cases Workspace.readAll disk (projects.flatMap (·.documents)) with
      | error error => rfl
      | ok parsed =>
          have documents : (opened parsed).documents = parsed :=
            (Workspace.takeIn_keeps parsed {}).2.2
          have recorded : Workspace.guardedRecordDocuments (List.range parsed.length)
              (opened parsed) = .ok (collected parsed) :=
            Workspace.guardedRecordDocuments_eq _ _
          have built : CallGraph.guardedOfRecords (collected parsed).1 policy =
              .ok (graphOf parsed policy) :=
            CallGraph.guardedOfRecords_eq _ policy
          have searched : Search.guardedRunFrom (graphOf parsed policy) policy
              (graphOf parsed policy).callers {} =
                .ok (Search.run (graphOf parsed policy) policy {}).1 :=
            Search.guardedRunFrom_eq _ policy _ rfl
          show (Workspace.guardedRecordDocuments (List.range (opened parsed).documents.length)
            (opened parsed) >>= _) = _
          simp only [documents, recorded, built, searched, ok_bind]
          rfl

/-- Reading a solution stops at the first request that is refused while its projects are looked
for. A refused read is reported. -/
theorem readSolution_refused_iff {disk : Disk} {solution : Path} {error : SystemError} :
    Workspace.readSolution disk solution = .error (.refused error) ↔
      disk.firstRefused? (requests disk.files (Path.ofText solution.text)) = some error := by
  rw [← openAt_refused_iff, Workspace.readSolution]
  cases (openAt disk solution.text).value with
  | error failure => simp only [Except.error.injEq]
  | ok projects =>
      constructor
      · intro read
        exact absurd read (reported_ne_refused _ error)
      · intro found
        cases found

/-- **An analysis fails only to load, and its failure is reported unless the system refuses a
request.** As long as none of the requests is refused by which the projects are found, every
guarded step succeeds and the chains are returned, or the reason is reported for which the
documents cannot be read. Otherwise the analysis fails with the error of the first request that
is refused. -/
theorem fails_to_load_or_is_refused (disk : Disk) (solution : Path) (policy : Policy) :
    (disk.firstRefused? (requests disk.files (Path.ofText solution.text)) = none ∧
      ((∃ parsed, Workspace.readSolution disk solution = .ok parsed ∧
          guardedRun disk solution policy = .ok ((graphOf parsed policy).cycles policy) ∧
          (run disk solution policy).value = .ok ((graphOf parsed policy).cycles policy)) ∨
        ∃ error, Workspace.readSolution disk solution = .error (.reported error) ∧
          guardedRun disk solution policy = .error (.load error) ∧
          (run disk solution policy).value = .error (.load (.reported error)))) ∨
    ∃ error, disk.firstRefused? (requests disk.files (Path.ofText solution.text)) = some error ∧
      Workspace.readSolution disk solution = .error (.refused error) ∧
      guardedRun disk solution policy = .error (.system error) ∧
      (run disk solution policy).value = .error (.load (.refused error)) := by
  have guarded := guardedRun_eq disk solution policy
  have total := run_value disk solution policy
  cases asked : disk.firstRefused? (requests disk.files (Path.ofText solution.text)) with
  | some error =>
      have read := readSolution_refused_iff.mpr asked
      rw [read] at guarded total
      exact .inr ⟨error, rfl, read, guarded, total⟩
  | none =>
      refine .inl ⟨rfl, ?_⟩
      cases read : Workspace.readSolution disk solution with
      | ok parsed =>
          rw [read] at guarded total
          exact .inl ⟨parsed, rfl, guarded, total.trans (ofDocuments_value parsed policy)⟩
      | error failure =>
          rw [read] at guarded total
          cases failure with
          | reported error => exact .inr ⟨error, rfl, guarded, total⟩
          | refused error =>
              have refused := readSolution_refused_iff.mp read
              rw [asked] at refused
              exact absurd refused (Option.some_ne_none error).symm

/-- A solution of one file, on a system that allows 255 bytes for a name. -/
def smallDisk : Disk := Disk.limited (.directory [("app.py", .file [])])

/-- A path with one name of 300 letters. -/
def overlongPath : Path := Path.ofText (String.ofList (List.replicate 300 'a'))

/-- **A path that is too long is not reported as missing.** Nothing stands there, but the system
refuses to look, and the analysis passes its error on. -/
theorem overlong_solution_is_refused :
    smallDisk.files.locate? overlongPath = none ∧
      (run smallDisk overlongPath {}).value =
        .error (.load (.refused ⟨overlongPath, .nameTooLong⟩)) := by
  have asked : smallDisk.firstRefused? (requests smallDisk.files (Path.ofText overlongPath.text)) =
      some ⟨overlongPath, .nameTooLong⟩ := by
    decide +kernel
  refine ⟨by decide +kernel, ?_⟩
  rw [run_value, readSolution_refused_iff.mpr asked]

end Analysis

end CyclicCalls
