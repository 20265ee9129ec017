import CyclicCalls.Proofs.ModuleContents
import CyclicCalls.Proofs.ReportEvidence
/-!
# Calls resolve to declared methods

Resolution puts the key of a method together from what it finds: the module and the name of a
function, or the module and the full name of a class and the name of a method. The documents
put their keys together from where a definition stands. Both ways lead to the same keys. A
function that is found is bound by a module of the index, and a class that is found was made
from a class definition of a document that the index holds, however it was reached: by its
name, through imports, inside another class, or as a base class (`Entity.Known`). That every
way of reaching an entity keeps such a property is shown once for all of them (`HandedOn`). The
functions and methods that are found are therefore declared (`declares_target`).

Hence a graph that leaves no caller out has a row for every callee.
-/

set_option autoImplicit false

namespace CyclicCalls

open Source Solution Index

namespace Logged

instance : LawfulMonad Logged := LawfulMonad.mk' Logged
  (fun first => by
    show Logged.mk first.value (first.events ++ []) = first
    rw [List.append_nil])
  (fun _ _ => rfl)
  (fun first second third =>
    congrArg (Logged.mk (third (second first.value).value).value) (List.append_assoc _ _ _))

/-- The values made from the members of a list one after the other. -/
theorem value_mapM {α β : Type} (make : α → Logged β) (items : List α) :
    (items.mapM make).value = items.map (fun item => (make item).value) := by
  induction items with
  | nil => rfl
  | cons item items ih =>
      rw [List.mapM_cons, List.map_cons, ← ih]
      rfl

end Logged

namespace Index.SolutionIndex

/-- A document that the index holds declares the method. -/
def Declares (index : SolutionIndex) (key : MethodKey) : Prop :=
  ∃ number info, (number, info) ∈ index.byDocument ∧
    ∃ declaration ∈ info.declarations, declaration.key = key

/-- The class was made from a document that the index holds. -/
def HasClass (index : SolutionIndex) (found : ClassInfo) : Prop :=
  ∃ number info, (number, info) ∈ index.byDocument ∧ info.HasClass found

/-- The index holds what it finds under a name, and bindings and declarations of what it
holds belong together. -/
structure Proper (index : SolutionIndex) : Prop where
  held : ∀ number info, (number, info) ∈ index.byDocument → info.Proper
  found : ∀ name info, index.module? name = some info → ∃ number, (number, info) ∈ index.byDocument

/-- The index holds what was found in the documents that were entered. -/
theorem mem_byDocument {reads : List ReadDocument} {entry : Nat × ModuleInfo} :
    entry ∈ (addAll reads {}).value.byDocument ↔ entry ∈ modulesFrom 0 reads := by
  rw [byDocument_addAll, List.append_nil, List.mem_reverse]

/-- A module is found by its name among what was found in documents, the last one first. -/
theorem module?_eq (reads : List ReadDocument) (name : String) :
    (addAll reads {}).value.module? name =
      ((addAll reads {}).value.byDocument.find? (fun entry => entry.2.name == name)).map (·.2) := by
  rw [module?_addAll, byDocument_addAll, List.append_nil]
  exact Option.or_none

/-- An index that documents were entered into is proper. -/
theorem proper_addAll (reads : List ReadDocument) : (addAll reads {}).value.Proper where
  held number info among := by
    obtain ⟨position, read, _, _, rfl⟩ := exists_of_mem_modulesFrom (mem_byDocument.mp among)
    exact moduleInfo_proper _ read.document read.statements
  found name info found := by
    obtain ⟨entry, listed, rfl⟩ := Option.map_eq_some_iff.mp (module?_eq reads name ▸ found)
    exact ⟨entry.1, List.mem_of_find?_eq_some listed⟩

theorem HasClass.nested {index : SolutionIndex} {found inner : ClassInfo}
    (has : index.HasClass found) {name : String} (bound : found.nested.find? name = some inner) :
    index.HasClass inner := by
  obtain ⟨number, info, held, stands⟩ := has
  exact ⟨number, info, held, stands.nested bound⟩

end Index.SolutionIndex

namespace Resolve

variable {index : SolutionIndex}

/-! ## What resolution hands on -/

/-- The functions and classes that a module declares have the property. -/
structure Binds (good : Entity → Prop) (info : ModuleInfo) : Prop where
  classes : ∀ name found, info.classes.find? name = some found → good (.class found)
  functions : ∀ name, info.functions.contains name = true → good (.function info.name name)

/-- Resolution hands the property on: every module has it, a module of the index gives it to
what it declares, and a class to the classes in it. -/
structure HandedOn (index : SolutionIndex) (good : Entity → Prop) : Prop where
  modules : ∀ name, good (.module name)
  bound : ∀ name info, index.module? name = some info → Binds good info
  nested : ∀ found name inner, good (.class found) → found.nested.find? name = some inner →
    good (.class inner)

/-- A member of a module is what its name denotes there, or else the submodule of that
name. -/
theorem memberOf_value (steps : Nat) (moduleName member : String) :
    (memberOf index (steps + 1) moduleName member).value =
      ((index.module? moduleName).bind
        (fun info => (nameIn (memberOf index steps) info member).value)).or
        (if index.isModule (moduleName ++ "." ++ member) then
          some (.module (moduleName ++ "." ++ member)) else none) := by
  rw [memberOf]
  cases index.module? moduleName with
  | none => rfl
  | some info =>
      rw [Logged.value_bind, Option.bind_some]
      cases (nameIn (memberOf index steps) info member).value with
      | none => rfl
      | some entity => rfl

namespace HandedOn

variable {good : Entity → Prop}

theorem of_nameIn (handedOn : HandedOn index good)
    {follow : String → String → Logged (Option Entity)}
    (followed : ∀ moduleName member, ∀ entity ∈ (follow moduleName member).value, good entity)
    {info : ModuleInfo} (binds : Binds good info) (name : String) :
    ∀ entity ∈ (nameIn follow info name).value, good entity := by
  intro entity denoted
  unfold nameIn at denoted
  split at denoted
  · rename_i found bound
    cases denoted
    exact binds.classes name found bound
  · split at denoted
    · rename_i bound
      cases denoted
      exact binds.functions name bound
    · split at denoted
      · exact nomatch denoted
      · cases denoted
        exact handedOn.modules _
      · exact followed _ _ entity denoted

theorem of_memberOf (handedOn : HandedOn index good) (steps : Nat) (moduleName member : String) :
    ∀ entity ∈ (memberOf index steps moduleName member).value, good entity := by
  induction steps generalizing moduleName member with
  | zero => exact fun _ denoted => nomatch denoted
  | succ steps ih =>
      intro entity denoted
      rw [memberOf_value, Option.mem_def, Option.or_eq_some_iff] at denoted
      rcases denoted with inside | ⟨_, submodule⟩
      · obtain ⟨info, listed, denotes⟩ := Option.bind_eq_some_iff.mp inside
        exact handedOn.of_nameIn ih (handedOn.bound moduleName info listed) member entity denotes
      · split at submodule
        · cases submodule
          exact handedOn.modules _
        · exact nomatch submodule

theorem of_expression (handedOn : HandedOn index good) (steps : Nat) {info : ModuleInfo}
    (binds : Binds good info) (given : Expr) :
    ∀ entity ∈ (expression index steps info given).value, good entity := by
  fun_induction expression index steps info given with
  | case1 id => exact handedOn.of_nameIn (handedOn.of_memberOf (steps - 1)) binds id
  | case2 value attr ih =>
      intro entity denoted
      rw [Logged.value_bind] at denoted
      split at denoted
      · exact handedOn.of_memberOf steps _ attr entity denoted
      · rename_i found inside
        obtain ⟨inner, bound, rfl⟩ := Option.map_eq_some_iff.mp denoted
        exact handedOn.nested found attr inner (ih _ inside) bound
      · exact nomatch denoted
  | case3 => exact fun _ denoted => nomatch denoted

theorem of_basesOf (handedOn : HandedOn index good) (info : ClassInfo) :
    ∀ base ∈ (basesOf index info).value, good (.class base) := by
  intro base among
  unfold basesOf at among
  split at among
  · exact nomatch among
  · rename_i home listed
    rw [Logged.value_bind, Logged.value_pure, Logged.value_mapM, classes,
      List.mem_filterMap] at among
    obtain ⟨denoted, member, same⟩ := among
    obtain ⟨given, _, rfl⟩ := List.mem_map.mp member
    split at same
    · rename_i found inside
      cases same
      exact handedOn.of_expression (stepsAt 0) (handedOn.bound _ home listed) given _ inside
    · exact nomatch same

/-- Classes that are visited keep the property, by one visit after the other. -/
theorem of_ancestorsFrom (handedOn : HandedOn index good) (visits : Nat)
    (pending : List ClassInfo) (seen : List ClassId)
    (start : ∀ info ∈ pending, good (.class info)) :
    ∀ found ∈ (ancestorsFrom index visits pending seen).value, good (.class found) := by
  induction visits generalizing pending seen with
  | zero => exact fun _ among => nomatch among
  | succ visits ih =>
      intro found among
      rw [ancestorsFrom] at among
      split at among
      · exact nomatch among
      · rename_i info rest left
        have still : ∀ other ∈ info :: rest, good (.class other) := by
          intro other member
          rw [← left] at member
          exact start other (List.dropWhile_subset _ member)
        rw [Logged.value_bind, Logged.value_bind, Logged.value_pure, List.mem_cons] at among
        rcases among with rfl | later
        · exact still _ List.mem_cons_self
        · refine ih _ _ (fun other member => ?_) found later
          rcases List.mem_append.mp member with base | outside
          · exact handedOn.of_basesOf info other base
          · exact still other (List.mem_cons_of_mem _ outside)

end HandedOn

/-! ## Calls -/

/-- What is said of an entity by the index: a function is declared, and a class was made from
a document. A module need not be one of the index. -/
def Entity.Known (index : SolutionIndex) : Entity → Prop
  | .module _ => True
  | .function moduleName name => index.Declares ⟨moduleName, moduleName, name⟩
  | .class found => index.HasClass found

theorem binds_known (proper : index.Proper) {number : Nat} {info : ModuleInfo}
    (held : (number, info) ∈ index.byDocument) : Binds (Entity.Known index) info where
  classes name found bound :=
    ⟨number, info, held, (proper.held number info held).classes name found bound⟩
  functions name bound := ⟨number, info, held, (proper.held number info held).functions name bound⟩

theorem handedOn_known (proper : index.Proper) : HandedOn index (Entity.Known index) where
  modules _ := trivial
  bound name info listed := by
    obtain ⟨number, held⟩ := proper.found name info listed
    exact binds_known proper held
  nested _ _ _ has bound := SolutionIndex.HasClass.nested has bound

/-- A class or its base classes give only methods that are declared. -/
theorem declares_methodOf (proper : index.Proper) {info : ClassInfo} (has : index.HasClass info)
    (name : String) (skipSelf : Bool) :
    ∀ key ∈ (methodOf index info name skipSelf).value, index.Declares key := by
  intro key resolved
  rw [methodOf, Logged.value_bind, Logged.value_pure] at resolved
  obtain ⟨owner, defining, rfl⟩ := Option.map_eq_some_iff.mp resolved
  rw [definingClass?, Logged.value_bind, Logged.value_pure] at defining
  have ancestor := List.mem_of_find?_eq_some defining
  obtain ⟨number, home, held, stands⟩ := (handedOn_known proper).of_ancestorsFrom _ [info] []
    (fun other member => List.mem_singleton.mp member ▸ has) owner ancestor
  have accepted := List.find?_some defining
  have bound : owner.methods.contains name = true := (Bool.and_eq_true_iff.mp accepted).2
  exact ⟨number, home, held, stands.exists_method bound⟩

theorem declares_calledEntity (proper : index.Proper) {denoted : Option Entity}
    (known : ∀ entity ∈ denoted, entity.Known index) :
    ∀ key ∈ (calledEntity index denoted).value, index.Declares key := by
  intro key resolved
  unfold calledEntity at resolved
  split at resolved
  · cases resolved
    exact known _ rfl
  · exact declares_methodOf proper (known _ rfl) _ _ key resolved
  · exact nomatch resolved

theorem declares_calledMember (proper : index.Proper) {owner : Option Entity}
    (known : ∀ entity ∈ owner, entity.Known index) (attr : String) :
    ∀ key ∈ (calledMember index owner attr).value, index.Declares key := by
  intro key resolved
  unfold calledMember at resolved
  split at resolved
  · rename_i info
    have has : index.HasClass info := known _ rfl
    split at resolved
    · rename_i inner bound
      refine declares_calledEntity proper (fun entity denoted => ?_) key resolved
      cases denoted
      exact has.nested bound
    · exact declares_methodOf proper has attr false key resolved
  · exact declares_calledEntity proper ((handedOn_known proper).of_memberOf _ _ attr) key resolved
  · exact nomatch resolved

/-- **Calls resolve to declared methods.** In a proper index, the target of a call in a
declaration that the index holds is declared by a document that the index holds. -/
theorem declares_target (proper : index.Proper) {number : Nat} {info : ModuleInfo}
    (held : (number, info) ∈ index.byDocument) {declaration : Declaration}
    (declares : declaration ∈ info.declarations) (call : Call) :
    ∀ key ∈ (target index info declaration call).value, index.Declares key := by
  have known (given : Expr) :
      ∀ entity ∈ (expression index (stepsAt 0) info given).value, entity.Known index :=
    (handedOn_known proper).of_expression _ (binds_known proper held) given
  have general (value : Expr) (attr : String) :
      ∀ key ∈ (expression index (stepsAt 0) info value >>= (calledMember index · attr)).value,
        index.Declares key :=
    declares_calledMember proper (known value) attr
  intro key resolved
  unfold target at resolved
  split at resolved
  · unfold calledAttribute at resolved
    split at resolved
    · rename_i owner own
      have has : index.HasClass owner :=
        ⟨number, info, held, (proper.held number info held).owners declaration declares owner own⟩
      split at resolved
      · exact declares_methodOf proper has _ true key resolved
      · split at resolved
        · exact declares_methodOf proper has _ false key resolved
        · exact general _ _ key resolved
    · exact general _ _ key resolved
  · exact declares_calledEntity proper (known _) key resolved
  · exact nomatch resolved

end Resolve

/-! ## The documents of an analysis -/

/-- The documents that could be read, numbered from the given number on. -/
def readDocuments (number : Nat) : ParsedDocuments → List ReadDocument
  | [] => []
  | (_, none) :: later => readDocuments (number + 1) later
  | (document, some statements) :: later =>
    ⟨number, document, statements⟩ :: readDocuments (number + 1) later

/-- A document that could be read stands among the documents, at the position that its number
gives. -/
theorem exists_of_mem_readDocuments {start : Nat} {parsed : ParsedDocuments} {read : ReadDocument}
    (among : read ∈ readDocuments start parsed) :
    ∃ position, read.number = start + position ∧
      parsed[position]? = some (read.document, some read.statements) := by
  induction parsed generalizing start with
  | nil => exact nomatch among
  | cons entry later ih =>
      have after (inside : read ∈ readDocuments (start + 1) later) :
          ∃ position, read.number = start + position ∧
            (entry :: later)[position]? = some (read.document, some read.statements) := by
        obtain ⟨position, number, stands⟩ := ih inside
        exact ⟨position + 1, by omega, stands⟩
      obtain ⟨document, statements⟩ := entry
      cases statements with
      | none => exact after among
      | some statements =>
          rcases List.mem_cons.mp among with rfl | inside
          · exact ⟨0, rfl, rfl⟩
          · exact after inside

theorem pairwise_number_readDocuments (start : Nat) (parsed : ParsedDocuments) :
    (readDocuments start parsed).Pairwise (fun first second => first.number < second.number) := by
  induction parsed generalizing start with
  | nil => exact .nil
  | cons entry later ih =>
      obtain ⟨document, statements⟩ := entry
      cases statements with
      | none => exact ih (start + 1)
      | some statements =>
          refine .cons (fun read among => ?_) (ih (start + 1))
          obtain ⟨position, number, _⟩ := exists_of_mem_readDocuments among
          show start < read.number
          omega

/-- Taking in documents enters those that could be read into the index. -/
theorem Workspace.takeIn_index (parsed : ParsedDocuments) (workspace : Workspace) :
    (takeIn parsed workspace).value.index =
      (workspace.index.addAll (readDocuments workspace.documents.length parsed)).value := by
  induction parsed generalizing workspace with
  | nil => rfl
  | cons entry later ih =>
      obtain ⟨document, statements⟩ := entry
      have length : (workspace.addDocument document statements).value.documents.length =
          workspace.documents.length + 1 := by
        rw [(addDocument_keeps workspace document statements).2.2, List.length_append]
        rfl
      rw [takeIn, Logged.value_bind, ih, length]
      cases statements with
      | none => rfl
      | some statements => rfl

namespace Analysis

theorem opened_index (parsed : ParsedDocuments) :
    (opened parsed).index = (SolutionIndex.addAll (readDocuments 0 parsed) {}).value :=
  Workspace.takeIn_index parsed {}

/-- The index holds what was found in documents by falling numbers. -/
theorem pairwise_byDocument (parsed : ParsedDocuments) :
    (opened parsed).index.byDocument.Pairwise (fun entry earlier => earlier.1 < entry.1) := by
  have rising : ((modulesFrom 0 (readDocuments 0 parsed)).map (·.1)).Pairwise (· < ·) := by
    rw [map_fst_modulesFrom]
    exact List.pairwise_map.mpr (pairwise_number_readDocuments 0 parsed)
  rw [opened_index, SolutionIndex.byDocument_addAll, List.append_nil, List.pairwise_reverse]
  exact List.pairwise_map.mp rising

/-- A document is indexed as what was found in it. -/
theorem ofDocument?_eq_some_iff {parsed : ParsedDocuments} {number : Nat} {info : ModuleInfo} :
    (opened parsed).index.ofDocument? number = some info ↔
      (number, info) ∈ (opened parsed).index.byDocument :=
  ⟨mem_of_lookup, lookup_of_mem
    (List.pairwise_map.mpr ((pairwise_byDocument parsed).imp Nat.ne_of_gt))⟩

/-- What a document was indexed as was made from the document. -/
theorem exists_statements {parsed : ParsedDocuments} {number : Nat} {info : ModuleInfo}
    (found : (opened parsed).index.ofDocument? number = some info) :
    ∃ entry statements, parsed[number]? = some (info.document, some statements) ∧
      info = (moduleInfo entry info.document statements).value := by
  rw [ofDocument?_eq_some_iff, opened_index, SolutionIndex.mem_byDocument] at found
  obtain ⟨entry, read, member, rfl, rfl⟩ := exists_of_mem_modulesFrom found
  obtain ⟨position, numbered, stands⟩ := exists_of_mem_readDocuments member
  rw [Nat.zero_add] at numbered
  exact ⟨0 + entry, read.statements, numbered ▸ stands, rfl⟩

theorem declares_iff {parsed : ParsedDocuments} {info : ModuleInfo} {declaration : Declaration} :
    Declares parsed info declaration ↔
      ∃ number, (number, info) ∈ (opened parsed).index.byDocument ∧
        declaration ∈ info.declarations := by
  constructor
  · rintro ⟨number, _, found, declared⟩
    exact ⟨number, ofDocument?_eq_some_iff.mp found, declared⟩
  · rintro ⟨number, held, declared⟩
    have found := ofDocument?_eq_some_iff.mpr held
    obtain ⟨_, _, stands, _⟩ := exists_statements found
    exact ⟨number, (List.getElem?_eq_some_iff.mp stands).1, found, declared⟩

/-- What a call of the documents resolves to is declared by them. -/
theorem isDeclared_of_targetOf {parsed : ParsedDocuments} {info : ModuleInfo}
    {declaration : Declaration} (declares : Declares parsed info declaration) {call : Call}
    {callee : Symbol} (resolves : targetOf parsed info declaration call = some callee) :
    IsDeclared parsed callee := by
  obtain ⟨number, held, declared⟩ := declares_iff.mp declares
  obtain ⟨key, resolved, symbol⟩ := Option.bind_eq_some_iff.mp resolves
  have proper : (opened parsed).index.Proper := by
    rw [opened_index]
    exact SolutionIndex.proper_addAll _
  obtain ⟨other, home, stands, found, inside, rfl⟩ :=
    Resolve.declares_target proper held declared call key resolved
  exact ⟨home, found, declares_iff.mpr ⟨other, stands, inside⟩, symbol⟩

theorem IsDeclared.mem_callers {parsed : ParsedDocuments} {method : Symbol}
    (declared : IsDeclared parsed method) : method ∈ (graphOf parsed {}).callers := by
  obtain ⟨info, declaration, declares, symbol⟩ := declared
  obtain ⟨record, member, named⟩ := exists_record declares
  have same : record.caller = method := Option.some.inj (named.caller.symm.trans symbol)
  obtain ⟨caller, listed, index⟩ :=
    CallGraph.exists_caller_ofRecords member (Policy.ignores_default record.caller)
  have fromTable := collected_allOver parsed
  have equal : caller = method := (collected_names parsed).1.eq_of_index
    (CallGraph.ofRecords_over fromTable {} caller (CallGraph.mem_symbols_of_caller listed))
    (same ▸ fromTable record member _ List.mem_cons_self) (same ▸ index)
  exact equal ▸ listed

/-- **Resolution names declared methods only.** Whatever documents were entered into an index,
a call in one of their declarations resolves to nothing, or to a method that is declared in one
of them. So every target in the records of an analysis is the symbol of a declaration, and in
the graph of an analysis that leaves no caller out, every callee is a caller. That graph is the
one whose cycles the analysis returns. -/
theorem targets_are_declared :
    (∀ (reads : List ReadDocument) (number : Nat) (info : ModuleInfo) (declaration : Declaration),
      (number, info) ∈ modulesFrom 0 reads → declaration ∈ info.declarations →
      ∀ call ∈ declaration.calls,
        (Resolve.target (SolutionIndex.addAll reads {}).value info declaration call).value = none ∨
        ∃ other home, (other, home) ∈ modulesFrom 0 reads ∧ ∃ found ∈ home.declarations,
          (Resolve.target (SolutionIndex.addAll reads {}).value info declaration call).value =
            some found.key) ∧
    (∀ parsed : ParsedDocuments, ∀ record ∈ (collected parsed).1, ∀ callee,
      some callee ∈ record.targets → IsDeclared parsed callee) ∧
    (∀ (parsed : ParsedDocuments) (caller callee : Symbol),
      callee ∈ (graphOf parsed {}).callees caller → callee ∈ (graphOf parsed {}).callers) ∧
    ∀ (disk : Disk) (solution : Path), (run disk solution {}).value =
      match Workspace.readSolution disk solution with
      | .error error => .error (.load error)
      | .ok parsed => .ok ((graphOf parsed {}).cycles {}) := by
  have declared (parsed : ParsedDocuments) (record : CallRecord)
      (member : record ∈ (collected parsed).1) (callee : Symbol)
      (target : some callee ∈ record.targets) : IsDeclared parsed callee := by
    obtain ⟨info, declaration, declares, named⟩ := exists_declaration member
    obtain ⟨call, _, resolves⟩ := (mem_targets_iff named).mp target
    exact isDeclared_of_targetOf declares resolves
  refine ⟨fun reads number info declaration listed declares call _ => ?_, declared,
    fun parsed caller callee called => ?_, fun disk solution => ?_⟩
  · cases resolved : (Resolve.target (SolutionIndex.addAll reads {}).value info declaration
      call).value with
    | none => exact .inl rfl
    | some key =>
        obtain ⟨other, home, held, found, inside, same⟩ := Resolve.declares_target
          (SolutionIndex.proper_addAll reads) (SolutionIndex.mem_byDocument.mpr listed) declares
          call key resolved
        exact .inr ⟨other, home, SolutionIndex.mem_byDocument.mp held, found, inside, same ▸ rfl⟩
  · obtain ⟨record, member, _, _, target⟩ := CallGraph.calls_ofRecords_iff.mp called
    exact (declared parsed record member callee target).mem_callers
  · rw [run_value]
    cases Workspace.readSolution disk solution with
    | error error => rfl
    | ok parsed => exact ofDocuments_value parsed {}

/-- A class of one method, which calls another method of its object. -/
def oneMethodClass (name base method called : String) : Stmt :=
  .classDef ⟨2, name, [.name base], [],
    [.function ⟨3, method, .mk [] [.mk "self" none] none [] [] none [],
      [.simple [.call 4 (.attribute (.name "self") called) [] []]], [], none⟩], []⟩

/-- Two modules that import each other's class and inherit from it, each calling what only the
other one defines. -/
def mutualBases : List ReadDocument :=
  [⟨0, ⟨⟨.here, ["a.py"]⟩, "a", false⟩,
    [.importFrom (some "b") [⟨"B", none⟩] 0, oneMethodClass "A" "B" "run" "step"]⟩,
   ⟨1, ⟨⟨.here, ["b.py"]⟩, "b", false⟩,
    [.importFrom (some "a") [⟨"A", none⟩] 0, oneMethodClass "B" "A" "step" "run"]⟩]

theorem targets_are_declared_mutualBases :
    ((modulesFrom 0 mutualBases).flatMap (fun entry => entry.2.declarations.flatMap
      (fun declaration => declaration.calls.map (fun call => (Resolve.target
        (SolutionIndex.addAll mutualBases {}).value entry.2 declaration call).value))) =
      [some ⟨"b", "b.B", "step"⟩, some ⟨"a", "a.A", "run"⟩]) ∧
    ∀ number info declaration, (number, info) ∈ modulesFrom 0 mutualBases →
      declaration ∈ info.declarations → ∀ call ∈ declaration.calls,
        (Resolve.target (SolutionIndex.addAll mutualBases {}).value info declaration call).value =
          none ∨
        ∃ other home, (other, home) ∈ modulesFrom 0 mutualBases ∧ ∃ found ∈ home.declarations,
          (Resolve.target (SolutionIndex.addAll mutualBases {}).value info declaration
            call).value = some found.key :=
  ⟨by decide +kernel, targets_are_declared.1 mutualBases⟩

end Analysis

end CyclicCalls
