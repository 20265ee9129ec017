import CyclicCalls.Proofs.DeclaredTargets
/-!
# Documents of one module name

Two documents may have the same module name: a file beside the package of its name, or files
of two projects. Under that name the index finds the later one, and says so. The declarations
of both are recorded, and symbols tell methods apart by module name, owner and name alone. So a
symbol belongs to one document exactly when no two documents of one module name declare methods
of one owner and name (`symbols_of_one_document_iff`). Where module names are distinct, every
symbol belongs to one document.

The negative control is a module beside a package of its name. The method that both declare
has one symbol, and a call that stands in the superseded module alone closes a cycle
(`superseded_module_closes_cycle`).
-/

set_option autoImplicit false

namespace CyclicCalls.Analysis

open Source Solution Index

/-- The document with the given number declares the method. -/
def DeclaresAt (parsed : ParsedDocuments) (number : Nat) (declaration : Declaration) : Prop :=
  ∃ info, (opened parsed).index.ofDocument? number = some info ∧ declaration ∈ info.declarations

/-- Declarations with one symbol stand in one document. -/
def SymbolsOfOneDocument (parsed : ParsedDocuments) : Prop :=
  ∀ (first second : Nat) (declaration other : Declaration),
    DeclaresAt parsed first declaration → DeclaresAt parsed second other →
    symbolOf? parsed declaration.key = symbolOf? parsed other.key → first = second

/-- The documents that could be read have distinct module names. -/
def DistinctNames (parsed : ParsedDocuments) : Prop :=
  ∀ (first second : Nat) (document other : Document) (statements others : List Stmt),
    parsed[first]? = some (document, some statements) →
    parsed[second]? = some (other, some others) →
    document.moduleName = other.moduleName → first = second

namespace DeclaresAt

variable {parsed : ParsedDocuments} {number : Nat} {declaration : Declaration}

theorem declares (at_ : DeclaresAt parsed number declaration) :
    ∃ info, Declares parsed info declaration := by
  obtain ⟨info, found, declared⟩ := at_
  exact ⟨info, declares_iff.mpr ⟨number, ofDocument?_eq_some_iff.mp found, declared⟩⟩

/-- A declaration of a document belongs to the document, which could be read. -/
theorem exists_statements (at_ : DeclaresAt parsed number declaration) :
    ∃ statements, parsed[number]? = some (declaration.document, some statements) := by
  obtain ⟨info, found, declared⟩ := at_
  obtain ⟨entry, statements, stands, made⟩ := Analysis.exists_statements found
  have home : declaration.document = info.document := by
    rw [made] at declared ⊢
    exact (moduleInfo_proper entry info.document statements).documents declaration declared
  exact ⟨statements, home ▸ stands⟩

/-- A declared method has a symbol. -/
theorem exists_symbol (at_ : DeclaresAt parsed number declaration) :
    ∃ method, symbolOf? parsed declaration.key = some method := by
  obtain ⟨info, declares⟩ := at_.declares
  obtain ⟨record, _, named⟩ := exists_record declares
  exact ⟨record.caller, named.caller⟩

end DeclaresAt

/-- Keys with one symbol are one key. -/
theorem key_eq_of_symbolOf? {parsed : ParsedDocuments} {key other : MethodKey} {method : Symbol}
    (first : symbolOf? parsed key = some method) (second : symbolOf? parsed other = some method) :
    key = other := by
  have left := List.find?_some first
  have right := List.find?_some second
  exact (beq_iff_eq.mp left).symm.trans (beq_iff_eq.mp right)

/-- Two declared methods have one symbol exactly if they have one key. -/
theorem symbolOf?_eq_iff {parsed : ParsedDocuments} {first : Nat}
    {declaration other : Declaration} (left : DeclaresAt parsed first declaration) :
    symbolOf? parsed declaration.key = symbolOf? parsed other.key ↔
      declaration.key = other.key := by
  constructor
  · intro same
    obtain ⟨method, symbol⟩ := left.exists_symbol
    exact key_eq_of_symbolOf? symbol (same ▸ symbol)
  · intro same
    rw [same]

/-- What is found under a name was found in the last document of that name. -/
theorem exists_of_module? {parsed : ParsedDocuments} {name : String} {info : ModuleInfo}
    (found : (opened parsed).index.module? name = some info) :
    ∃ number, (opened parsed).index.ofDocument? number = some info ∧ info.name = name ∧
      ∀ later other, (opened parsed).index.ofDocument? later = some other →
        other.name = name → later ≤ number := by
  rw [opened_index, SolutionIndex.module?_eq, ← opened_index] at found
  obtain ⟨⟨number, home⟩, listed, rfl⟩ := Option.map_eq_some_iff.mp found
  obtain ⟨named, newer, older, split, unnamed⟩ := List.find?_eq_some_iff_append.mp listed
  refine ⟨number, ?_, beq_iff_eq.mp named, fun later other held same => ?_⟩
  · rw [ofDocument?_eq_some_iff, split]
    exact List.mem_append_right _ List.mem_cons_self
  · have falling := pairwise_byDocument parsed
    rw [ofDocument?_eq_some_iff, split] at held
    rw [split] at falling
    rcases List.mem_append.mp held with before | after
    · have refused := unnamed _ before
      simp [same] at refused
    · rcases List.mem_cons.mp after with here | beyond
      · exact Nat.le_of_eq (congrArg Prod.fst here)
      · have below := (List.pairwise_cons.mp (List.pairwise_append.mp falling).2.1).1 _ beyond
        exact Nat.le_of_lt below

/-- **The module of a name is what was found in the last document of that name.** -/
theorem module?_eq_some_iff {parsed : ParsedDocuments} {name : String} {info : ModuleInfo} :
    (opened parsed).index.module? name = some info ↔
      ∃ number, (opened parsed).index.ofDocument? number = some info ∧ info.name = name ∧
        ∀ later other, (opened parsed).index.ofDocument? later = some other →
          other.name = name → later ≤ number := by
  refine ⟨exists_of_module?, ?_⟩
  rintro ⟨number, held, named, last⟩
  have listed : ((opened parsed).index.module? name).isSome = true := by
    rw [opened_index, SolutionIndex.module?_eq, ← opened_index, Option.isSome_map,
      List.find?_isSome]
    exact ⟨(number, info), ofDocument?_eq_some_iff.mp held, beq_iff_eq.mpr named⟩
  obtain ⟨home, found⟩ := Option.isSome_iff_exists.mp listed
  obtain ⟨latest, heldLatest, namedLatest, lastLatest⟩ := exists_of_module? found
  have same : latest = number :=
    Nat.le_antisymm (last latest home heldLatest namedLatest) (lastLatest number info held named)
  rw [same, held, Option.some.injEq] at heldLatest
  rw [found, heldLatest]

/-- **When a symbol belongs to one document.** Declarations with one symbol stand in documents
of one module name. They stand in one document exactly if no two documents of one module name
declare methods of one owner and one name, and so whenever module names are distinct. For a
name that documents share, the index finds the last of them; but every declaration of every
document has its record, whose targets are what the calls of the declaration resolve to. -/
theorem symbols_of_one_document_iff (parsed : ParsedDocuments) :
    (∀ first second declaration other, DeclaresAt parsed first declaration →
      DeclaresAt parsed second other →
      symbolOf? parsed declaration.key = symbolOf? parsed other.key →
      declaration.document.moduleName = other.document.moduleName) ∧
    (SymbolsOfOneDocument parsed ↔
      ∀ first second declaration other, DeclaresAt parsed first declaration →
        DeclaresAt parsed second other →
        declaration.document.moduleName = other.document.moduleName →
        declaration.ownerName = other.ownerName →
        declaration.definition.name = other.definition.name → first = second) ∧
    (DistinctNames parsed → SymbolsOfOneDocument parsed) ∧
    (∀ name info, (opened parsed).index.module? name = some info ↔
      ∃ number, (opened parsed).index.ofDocument? number = some info ∧ info.name = name ∧
        ∀ later other, (opened parsed).index.ofDocument? later = some other →
          other.name = name → later ≤ number) ∧
    ∀ number declaration, DeclaresAt parsed number declaration →
      ∃ record ∈ (collected parsed).1, symbolOf? parsed declaration.key = some record.caller ∧
        ∃ info, (opened parsed).index.ofDocument? number = some info ∧
          ∀ callee, some callee ∈ record.targets ↔
            ∃ call ∈ declaration.calls, targetOf parsed info declaration call = some callee := by
  have names : ∀ first second declaration other, DeclaresAt parsed first declaration →
      DeclaresAt parsed second other →
      symbolOf? parsed declaration.key = symbolOf? parsed other.key →
      declaration.document.moduleName = other.document.moduleName :=
    fun _ _ _ _ left _ same => congrArg MethodKey.moduleName ((symbolOf?_eq_iff left).mp same)
  refine ⟨names, ⟨?_, ?_⟩, ?_, fun _ _ => module?_eq_some_iff, ?_⟩
  · intro apart first second declaration other left right sameModule sameOwner sameName
    refine apart first second declaration other left right ((symbolOf?_eq_iff left).mpr ?_)
    exact MethodKey.mk.injEq .. ▸ ⟨sameModule, sameOwner, sameName⟩
  · intro apart first second declaration other left right same
    have keys := (symbolOf?_eq_iff left).mp same
    exact apart first second declaration other left right (congrArg MethodKey.moduleName keys)
      (congrArg MethodKey.owner keys) (congrArg MethodKey.name keys)
  · intro distinct first second declaration other left right same
    obtain ⟨statements, stands⟩ := left.exists_statements
    obtain ⟨others, standsOther⟩ := right.exists_statements
    exact distinct first second _ _ statements others stands standsOther
      (names first second declaration other left right same)
  · rintro number declaration ⟨info, found, declared⟩
    obtain ⟨record, member, named⟩ := exists_record
      (declares_iff.mpr ⟨number, ofDocument?_eq_some_iff.mp found, declared⟩)
    exact ⟨record, member, named.caller, info, found, fun _ => mem_targets_iff named⟩

/-! ## A module beside a package -/

/-- A function without parameters, decorators and hints that makes the given calls. -/
def functionCalling (line : Nat) (name : String) (called : List String) : FunctionDef Stmt :=
  ⟨line, name, .none, [.simple (called.map (fun id => .call (line + 1) (.name id) [] []))], [],
    none⟩

/-- A module that is superseded by the package of its name. -/
def supersededModule : Document :=
  ⟨⟨.here, ["pkg.py"]⟩, "pkg", false⟩

/-- The package that supersedes the module. -/
def supersedingPackage : Document :=
  ⟨⟨.here, ["pkg", "__init__.py"]⟩, "pkg", true⟩

/-- In the module, two functions call each other. The package has one of them, and it makes no
calls. -/
def twins : ParsedDocuments :=
  [(supersededModule, some [.function (functionCalling 1 "load" ["parse"]),
    .function (functionCalling 5 "parse" ["load"])]),
   (supersedingPackage, some [.function (functionCalling 1 "load" [])])]

/-- **A superseded module takes part.** One symbol belongs to two documents, and though the
index finds the package under the name of both, the calls in the module close a cycle. -/
theorem superseded_module_closes_cycle :
    ¬ SymbolsOfOneDocument twins ∧
      ((opened twins).index.module? "pkg").map (·.document) = some supersedingPackage ∧
      (ofDocuments twins {}).value = .ok ["pkg.load -> pkg.parse -> pkg.load"] := by
  have older : DeclaresAt twins 0 ⟨supersededModule, functionCalling 1 "load" ["parse"], none⟩ :=
    ⟨_, rfl, List.mem_cons_self⟩
  have newer : DeclaresAt twins 1 ⟨supersedingPackage, functionCalling 1 "load" [], none⟩ :=
    ⟨_, rfl, List.mem_cons_self⟩
  refine ⟨fun apart => ?_, by decide +kernel, ?_⟩
  · exact absurd (apart 0 1 _ _ older newer rfl) Nat.zero_ne_one
  · rw [ofDocuments_value]
    exact congrArg Except.ok (by decide +kernel)

end CyclicCalls.Analysis
