import CyclicCalls.CallGraph
import CyclicCalls.Resolve
import CyclicCalls.Source.Reading
/-!
# Workspaces

A workspace holds the documents opened so far, numbered in the order of opening,
with what was read from them, the index of their modules, and the symbols handed
out. Opening a solution reads all its documents before any call is resolved, so
that calls can be followed across documents.

A document is resolved as the module that it was when it was first resolved, also
when it is entered into the index again later.
-/

set_option autoImplicit false

namespace CyclicCalls

open Source Solution Index

/-- Documents, their index, and symbols. -/
structure Workspace where
  table : SymbolTable := {}
  documents : List (Document × Option (List Stmt)) := []
  index : SolutionIndex := {}
  /-- The modules as which documents are resolved, by document number. -/
  resolved : List (Nat × ModuleInfo) := []

namespace Workspace

/-! ## Opening -/

/-- The statements of a document; nothing when they cannot be read. A document
that cannot be opened is an error. -/
def readDocument (disk : Disk) (document : Document) :
    Except LoadError (Option (List Stmt)) :=
  match disk.read document.path with
  | .error error => .error (.unreadable document.path error)
  | .ok bytes => .ok (readBytes? bytes)

/-- Take in a document. -/
def addDocument (workspace : Workspace) (document : Document)
    (statements : Option (List Stmt)) : Logged Workspace := do
  let number := workspace.documents.length
  let documents := workspace.documents ++ [(document, statements)]
  match statements with
  | none =>
    Logged.say (.documentSkipped document.path.text)
    pure { workspace with documents := documents }
  | some statements =>
    let index ← workspace.index.add number document statements
    pure { workspace with documents := documents, index := index }

/-- Read and take in documents from left to right. -/
def addDocuments (disk : Disk) :
    List Document → Workspace → Logged (Except LoadError Workspace)
  | [], workspace => pure (.ok workspace)
  | document :: documents, workspace =>
    match readDocument disk document with
    | .error error => pure (.error error)
    | .ok statements => do
      let next ← workspace.addDocument document statements
      addDocuments disk documents next

/-- The number of documents from a position on that could be read. -/
def parsedSince (workspace : Workspace) (start : Nat) : Nat :=
  ((workspace.documents.drop start).filter (fun entry => entry.2.isSome)).length

/-- Open a solution: its projects, and the workspace with their documents. -/
def openSolution (workspace : Workspace) (disk : Disk) (given : String) :
    Logged (Except LoadFailure (List Project × Workspace)) := do
  match ← openAt disk given with
  | .error failure => pure (.error failure)
  | .ok projects =>
    let documents := projects.flatMap (·.documents)
    match ← addDocuments disk documents workspace with
    | .error error => pure (.error (.reported error))
    | .ok next =>
      let parsed := next.parsedSince workspace.documents.length
      Logged.say (.documentsRead parsed (documents.length - parsed))
      pure (.ok (projects, next))

/-- Enter a document into the index again. Nothing happens to one that could not
be read. -/
def addAgain (workspace : Workspace) (number : Nat) : Logged Workspace :=
  match workspace.documents[number]? with
  | some (document, some statements) => do
    let index ← workspace.index.add number document statements
    pure { workspace with index := index }
  | _ => pure workspace

/-! ## Resolving -/

/-- The declarations of a document. -/
def declarations (workspace : Workspace) (number : Nat) : List Declaration :=
  match workspace.index.ofDocument? number with
  | some info => info.declarations
  | none => []

/-- The module as which a document is resolved, fixed at the first use. -/
def moduleOf? (workspace : Workspace) (number : Nat) : Option (ModuleInfo × Workspace) :=
  match workspace.resolved.lookup number with
  | some info => some (info, workspace)
  | none =>
    (workspace.index.ofDocument? number).map (fun info =>
      (info, { workspace with resolved := (number, info) :: workspace.resolved }))

/-- The wording for a document that has no module to be resolved as. -/
def notIndexedMessage (document : Document) : String :=
  "document " ++ document.path.text ++ " has not been indexed"

/-- The targets of calls in a declaration with the symbols handed out for them.
Every call without a target is reported. -/
def targets (index : SolutionIndex) (info : ModuleInfo) (declaration : Declaration)
    (caller : Symbol) : List Call → SymbolTable → Logged (List (Option Symbol) × SymbolTable)
  | [], table => pure ([], table)
  | call :: calls, table => do
    match ← Resolve.target index info declaration call with
    | some key =>
      let (symbol, next) := table.intern key
      let (others, last) ← targets index info declaration caller calls next
      pure (some symbol :: others, last)
    | none =>
      Logged.say (.callUnresolved caller.qualifiedName (declaration.place call))
      let (others, last) ← targets index info declaration caller calls table
      pure (none :: others, last)

/-- The record of a declaration: its symbol is handed out first, then those of
its targets. -/
def record (index : SolutionIndex) (info : ModuleInfo) (declaration : Declaration)
    (table : SymbolTable) : Logged (CallRecord × SymbolTable) := do
  let (caller, next) := table.intern declaration.key
  let (found, last) ← targets index info declaration caller declaration.calls next
  pure (⟨caller, found⟩, last)

/-- The records of declarations of one module from left to right. -/
def recordAll (index : SolutionIndex) (info : ModuleInfo) :
    List Declaration → SymbolTable → Logged (List CallRecord × SymbolTable)
  | [], table => pure ([], table)
  | declaration :: declarations, table => do
    let (first, next) ← record index info declaration table
    let (others, last) ← recordAll index info declarations next
    pure (first :: others, last)

/-- The records of a document. -/
def recordDocument (workspace : Workspace) (number : Nat) :
    Logged (List CallRecord × Workspace) :=
  match workspace.declarations number, workspace.moduleOf? number with
  | declaration :: declarations, some (info, next) => do
    let (records, table) ← recordAll next.index info (declaration :: declarations) next.table
    pure (records, { next with table := table })
  | _, _ => pure ([], workspace)

/-- The records of documents from left to right. -/
def recordDocuments : List Nat → Workspace → Logged (List CallRecord × Workspace)
  | [], workspace => pure ([], workspace)
  | number :: numbers, workspace => do
    let (first, next) ← workspace.recordDocument number
    let (others, last) ← recordDocuments numbers next
    pure (first ++ others, last)

/-- Open a solution and record the calls of all its declarations. -/
def collect (workspace : Workspace) (disk : Disk) (given : String) :
    Logged (Except LoadFailure (List CallRecord × Workspace)) := do
  match ← workspace.openSolution disk given with
  | .error failure => pure (.error failure)
  | .ok (_, next) =>
    let start := workspace.documents.length
    let numbers := List.range' start (next.documents.length - start)
    let collected ← recordDocuments numbers next
    pure (.ok collected)

end Workspace

end CyclicCalls
