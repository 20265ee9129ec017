import CyclicCalls.Proofs.ImportChains
/-!
# Forms of imports

A function or a class of a module can be called from another module in several ways: by the
dotted name of its module, through a second name of the module, by a name it was imported under,
and through the module as a member of the package around it (`ImportForm`). All of them resolve
to what a call of its plain name in its own module resolves to (`import_forms_agree`).

Each form resolves to the module in its own way. A dotted name is resolved part by part, and for
each part the package before it is asked first. The packages may be modules of the index or mere
prefixes of module names; what matters is that no package that is a module binds the part that
comes next.
-/

set_option autoImplicit false

namespace CyclicCalls

open Source Solution Index

namespace Index

/-- A module gives a name no meaning at its scope. -/
structure ModuleInfo.LeavesOpen (info : ModuleInfo) (name : String) : Prop where
  classes : info.classes.find? name = none
  functions : info.functions.find? name = none
  imports : info.imports.find? name = none

/-- An import of one module binds its first part, or the given name to the module. -/
theorem ModuleInfo.BindsBy.importModules {info : ModuleInfo} {item name : String}
    {asName : Option String} (binds : info.BindsBy (.importModules [⟨item, asName⟩]) name) :
    info.imports.find? name =
      some ⟨asName.elim ((Text.split "." item).headD "") (fun _ => item), none⟩ := by
  obtain ⟨binding, bound, imported⟩ := binds
  rw [importsOf, Logged.value_bind, importsOf, Logged.value_pure, Logged.value_pure,
    List.append_nil, moduleBindings, List.map_singleton, List.mem_singleton] at bound
  cases asName with
  | none =>
      cases bound
      exact imported
  | some given =>
      cases bound
      exact imported

/-- The packages of a module of the index, and the module itself, are found in it. -/
theorem SolutionIndex.hasModule_of_parts {index : SolutionIndex} {moduleName : String}
    {home : ModuleInfo} (listed : index.module? moduleName = some home) {lead rest : List String}
    (parts : Text.split "." moduleName = lead ++ rest) (nonempty : lead ≠ []) :
    index.HasModule (Text.join "." lead) := by
  have known : moduleName ∈ index.modules.names := List.mem_map_of_mem (mem_of_lookup listed)
  have joined : Text.join "." (lead ++ rest) = moduleName :=
    parts ▸ Text.join_split (by decide) moduleName
  refine ⟨moduleName, known, ?_⟩
  by_cases whole : rest = []
  · rw [whole, List.append_nil] at joined
    exact .inl joined.symm
  · exact .inr ⟨Text.join "." rest, by rw [← joined, Text.join_append nonempty whole]⟩

end Index

namespace Resolve

variable {index : SolutionIndex}

/-! ## Members of modules -/

/-- What a module declares under a name: the class, or else the function. -/
def declaredAs (home : ModuleInfo) (name : String) : Entity :=
  match home.classes.find? name with
  | some found => .class found
  | none => .function home.name name

theorem nameIn_of_declared {home : ModuleInfo} {name : String}
    (declared : home.classes.contains name = true ∨ home.functions.contains name = true)
    (follow : String → String → Logged (Option Entity)) :
    nameIn follow home name = pure (some (declaredAs home name)) := by
  unfold nameIn declaredAs
  cases bound : home.classes.find? name with
  | some found => rfl
  | none =>
      have isFunction : home.functions.contains name = true :=
        declared.resolve_left (by simp [Bindings.contains, bound])
      exact if_pos isFunction

theorem memberOf_of_declared {moduleName name : String} {home : ModuleInfo}
    (listed : index.module? moduleName = some home)
    (declared : home.classes.contains name = true ∨ home.functions.contains name = true)
    (steps : Nat) :
    memberOf index (steps + 1) moduleName name = pure (some (declaredAs home name)) := by
  simp only [memberOf, listed, nameIn_of_declared declared, pure_bind]

/-- A member that its module leaves open is the submodule of its name. -/
theorem memberOf_of_leavesOpen {moduleName name : String}
    (leaves : ∀ info, index.module? moduleName = some info → info.LeavesOpen name)
    (there : index.HasModule (moduleName ++ "." ++ name)) (steps : Nat) :
    memberOf index (steps + 1) moduleName name =
      pure (some (.module (moduleName ++ "." ++ name))) := by
  have stands := SolutionIndex.isModule_iff.mpr there
  cases listed : index.module? moduleName with
  | none => simp only [memberOf, listed, pure_bind, stands, if_true]
  | some info =>
      obtain ⟨classes, functions, imports⟩ := leaves info listed
      have silent : nameIn (memberOf index steps) info name = pure none := by
        simp [nameIn, Bindings.contains, classes, functions, imports]
      simp only [memberOf, listed, silent, pure_bind, stands, if_true]

/-! ## Imported names -/

section Imported

variable {user : ModuleInfo} {bound : String} (noClass : user.classes.find? bound = none)
  (noFunction : user.functions.find? bound = none)

include noClass noFunction

theorem expression_of_module {moduleName : String}
    (imported : user.imports.find? bound = some ⟨moduleName, none⟩) (steps : Nat) :
    expression index steps user (.name bound) = pure (some (.module moduleName)) := by
  simp [expression, nameIn, Bindings.contains, noClass, noFunction, imported]

theorem expression_of_member {moduleName member : String}
    (imported : user.imports.find? bound = some ⟨moduleName, some member⟩) (steps : Nat) :
    expression index (steps + 1) user (.name bound) = memberOf index steps moduleName member := by
  simp [expression, nameIn, Bindings.contains, noClass, noFunction, imported]

end Imported

/-! ## Forms -/

/-- The ways to import a member of a module, or the module it is a member of. -/
inductive ImportForm where
  /-- The module by its dotted name. -/
  | whole
  /-- The module under a name of its own. -/
  | renamed (bound : String)
  /-- The member under a name of its own. -/
  | direct (bound : String)
  /-- The module under a name of its own, as a member of the package around it. -/
  | fromPackage (bound : String)

/-- A dotted name as an expression. -/
def dottedName : List String → Expr
  | [] => .name ""
  | first :: rest => rest.foldl .attribute (.name first)

namespace ImportForm

/-- The import statement of a form. -/
def statement (moduleName name : String) : ImportForm → Outline
  | whole => .importModules [⟨moduleName, none⟩]
  | renamed bound => .importModules [⟨moduleName, some bound⟩]
  | direct bound => .importFrom (some moduleName) [⟨name, some bound⟩] 0
  | fromPackage bound =>
    let parts := Text.split "." moduleName
    .importFrom (some (Text.join "." parts.dropLast)) [⟨parts.getLastD "", some bound⟩] 0

/-- The name that a form binds. -/
def boundName (moduleName : String) : ImportForm → String
  | whole => (Text.split "." moduleName).headD ""
  | renamed bound => bound
  | direct bound => bound
  | fromPackage bound => bound

/-- The expression that is called to call the member. -/
def called (moduleName name : String) : ImportForm → Expr
  | whole => .attribute (dottedName (Text.split "." moduleName)) name
  | renamed bound => .attribute (.name bound) name
  | direct bound => .name bound
  | fromPackage bound => .attribute (.name bound) name

/-- Only a module with a package around it can be imported from there. -/
def Fits (moduleName : String) : ImportForm → Prop
  | fromPackage _ => 2 ≤ (Text.split "." moduleName).length
  | _ => True

end ImportForm

/-- A module imports a member of another one by the given form, and declares neither a class nor
a function of the name that the form binds. -/
structure ImportsBy (user : ModuleInfo) (form : ImportForm) (moduleName name : String) : Prop where
  fits : form.Fits moduleName
  binds : user.BindsBy (form.statement moduleName name) (form.boundName moduleName)
  noClass : user.classes.find? (form.boundName moduleName) = none
  noFunction : user.functions.find? (form.boundName moduleName) = none

theorem dottedName_concat {lead : List String} (nonempty : lead ≠ []) (next : String) :
    dottedName (lead ++ [next]) = .attribute (dottedName lead) next := by
  cases lead with
  | nil => exact absurd rfl nonempty
  | cons first rest => simp [dottedName]

/-- The packages around a module that are modules themselves bind none of the parts of its name
that come next. -/
def ClearWay (index : SolutionIndex) (moduleName : String) : Prop :=
  ∀ lead next rest, lead ≠ [] → Text.split "." moduleName = lead ++ next :: rest →
    ∀ info, index.module? (Text.join "." lead) = some info → info.LeavesOpen next

section Module

variable {moduleName : String} {home : ModuleInfo}
  (listed : index.module? moduleName = some home) (clear : ClearWay index moduleName)

include listed clear

/-- A module is the member of the package around it that its last part names, and each package
is found in the same way. -/
theorem memberOf_of_clearWay {lead rest : List String} {next : String} (nonempty : lead ≠ [])
    (parts : Text.split "." moduleName = lead ++ next :: rest) (steps : Nat) :
    memberOf index (steps + 1) (Text.join "." lead) next =
      pure (some (.module (Text.join "." (lead ++ [next])))) := by
  have joined : Text.join "." (lead ++ [next]) = Text.join "." lead ++ "." ++ next :=
    Text.join_append nonempty (List.cons_ne_nil _ _)
  have longer : Text.split "." moduleName = (lead ++ [next]) ++ rest := by
    rw [parts, List.append_assoc, List.singleton_append]
  have there : index.HasModule (Text.join "." (lead ++ [next])) :=
    SolutionIndex.hasModule_of_parts listed longer
      (List.append_ne_nil_of_right_ne_nil _ (List.cons_ne_nil _ _))
  rw [joined] at there ⊢
  exact memberOf_of_leavesOpen (clear lead next rest nonempty parts) there steps

/-- A dotted name is resolved part by part. -/
theorem expression_dottedName {user : ModuleInfo} {first : String}
    (noClass : user.classes.find? first = none) (noFunction : user.functions.find? first = none)
    (imported : user.imports.find? first = some ⟨first, none⟩) (steps : Nat)
    {lead rest : List String} (parts : Text.split "." moduleName = first :: lead ++ rest) :
    expression index (steps + 1) user (dottedName (first :: lead)) =
      pure (some (.module (Text.join "." (first :: lead)))) := by
  induction lead using List.reverseRecOn generalizing rest with
  | nil => exact expression_of_module noClass noFunction imported (steps + 1)
  | append_singleton lead next ih =>
      rw [← List.cons_append] at parts ⊢
      rw [dottedName_concat (List.cons_ne_nil _ _), expression]
      rw [List.append_assoc, List.singleton_append] at parts
      rw [ih parts, pure_bind]
      exact memberOf_of_clearWay listed clear (List.cons_ne_nil _ _) parts steps

/-- The dotted name of a module denotes it where its first part is imported. -/
theorem expression_whole {user : ModuleInfo} {name : String}
    (binds : user.BindsBy (ImportForm.whole.statement moduleName name)
      (ImportForm.whole.boundName moduleName))
    (noClass : user.classes.find? (ImportForm.whole.boundName moduleName) = none)
    (noFunction : user.functions.find? (ImportForm.whole.boundName moduleName) = none)
    (steps : Nat) :
    expression index (steps + 1) user (dottedName (Text.split "." moduleName)) =
      pure (some (.module moduleName)) := by
  obtain ⟨first, rest, parts⟩ := List.exists_cons_of_ne_nil (Text.split_ne_nil "." moduleName)
  have bound : ImportForm.whole.boundName moduleName = first := by
    rw [ImportForm.boundName, parts, List.headD_cons]
  have imported := binds.importModules
  rw [Option.elim_none, parts, List.headD_cons, bound] at imported
  rw [bound] at noClass noFunction
  have joined : Text.join "." (first :: rest) = moduleName :=
    parts ▸ Text.join_split (by decide) moduleName
  rw [parts, expression_dottedName listed clear noClass noFunction imported steps
    (parts.trans (List.append_nil _).symm), joined]

/-- A module is the last part of its name as a member of the package around it. -/
theorem memberOf_fromPackage (inside : 2 ≤ (Text.split "." moduleName).length) (steps : Nat) :
    memberOf index (steps + 1) (Text.join "." (Text.split "." moduleName).dropLast)
      ((Text.split "." moduleName).getLastD "") = pure (some (.module moduleName)) := by
  have package : (Text.split "." moduleName).dropLast ≠ [] := by
    rw [← List.length_pos_iff, List.length_dropLast]
    exact Nat.sub_pos_of_lt inside
  have parts : Text.split "." moduleName =
      (Text.split "." moduleName).dropLast ++ [(Text.split "." moduleName).getLastD ""] := by
    rw [List.getLastD_eq_getLast?,
      List.getLast?_eq_some_getLast (Text.split_ne_nil "." moduleName)]
    exact (List.dropLast_append_getLast _).symm
  rw [memberOf_of_clearWay listed clear package parts steps, ← parts,
    Text.join_split (by decide) moduleName]

end Module

/-! ## Calls -/

/-- A call of a member of a module, outside of classes, calls what the module declares. -/
theorem calledAttribute_of_module {moduleName name : String} {home user : ModuleInfo}
    (listed : index.module? moduleName = some home)
    (declared : home.classes.contains name = true ∨ home.functions.contains name = true)
    {caller : Declaration} (outside : caller.owner = none) {value : Expr}
    (denotes : expression index (stepsAt 0) user value = pure (some (.module moduleName))) :
    calledAttribute index user caller value name =
      calledEntity index (some (declaredAs home name)) := by
  have member : memberOf index (stepsAt 0) moduleName name = pure (some (declaredAs home name)) :=
    memberOf_of_declared listed declared maxImportDepth
  simp only [calledAttribute, outside, denotes, pure_bind, calledMember, member]

/-- Whatever the form, a call calls what the module declares. -/
theorem target_of_form {moduleName name : String} {home user : ModuleInfo}
    (listed : index.module? moduleName = some home)
    (declared : home.classes.contains name = true ∨ home.functions.contains name = true)
    (clear : ClearWay index moduleName) {form : ImportForm}
    (imports : ImportsBy user form moduleName name) {caller : Declaration}
    (outside : caller.owner = none) {call : Call}
    (called : call.function = form.called moduleName name) :
    target index user caller call = calledEntity index (some (declaredAs home name)) := by
  obtain ⟨fits, binds, noClass, noFunction⟩ := imports
  unfold target
  rw [called]
  cases form with
  | whole =>
      apply calledAttribute_of_module listed declared outside
      exact expression_whole listed clear binds noClass noFunction maxImportDepth
  | renamed bound =>
      apply calledAttribute_of_module listed declared outside
      exact expression_of_module noClass noFunction binds.importModules (stepsAt 0)
  | direct bound =>
      obtain ⟨found, source, imported⟩ := binds.importFrom
      cases source
      have denotes : expression index (stepsAt 0) user (.name bound) =
          pure (some (declaredAs home name)) :=
        (expression_of_member noClass noFunction imported maxImportDepth).trans
          (memberOf_of_declared listed declared _)
      show expression index (stepsAt 0) user (.name bound) >>= calledEntity index = _
      rw [denotes, pure_bind]
  | fromPackage bound =>
      apply calledAttribute_of_module listed declared outside
      obtain ⟨found, source, imported⟩ := binds.importFrom
      cases source
      exact (expression_of_member noClass noFunction imported maxImportDepth).trans
        (memberOf_fromPackage listed clear fits _)

/-- In its own module, a call of the plain name calls what the module declares. -/
theorem target_of_declared {name : String} {home : ModuleInfo}
    (declared : home.classes.contains name = true ∨ home.functions.contains name = true)
    {call : Call} (called : call.function = .name name) (caller : Declaration) :
    target index home caller call = calledEntity index (some (declaredAs home name)) := by
  unfold target
  rw [called]
  show nameIn _ home name >>= calledEntity index = _
  rw [nameIn_of_declared declared, pure_bind]

/-- **All forms of imports lead to the same method.** A module declares a function or a class, and
no package around it that is a module binds the part of its name that comes next. Then a call of
it outside of classes has one target, whatever form it is imported by, and this is the target
that a call of its plain name in its own module has. It is the function, or the constructor that
the class and its base classes give. -/
theorem import_forms_agree (index : SolutionIndex) (moduleName name : String) (home : ModuleInfo)
    (listed : index.module? moduleName = some home)
    (declared : home.classes.contains name = true ∨ home.functions.contains name = true)
    (clear : ClearWay index moduleName) (form : ImportForm) (user : ModuleInfo)
    (imports : ImportsBy user form moduleName name) (caller resident : Declaration)
    (outside : caller.owner = none) (call plain : Call)
    (called : call.function = form.called moduleName name) (named : plain.function = .name name) :
    target index user caller call = target index home resident plain ∧
      (home.classes.find? name = none →
        (target index user caller call).value = some ⟨home.name, home.name, name⟩) ∧
      (∀ found, home.classes.find? name = some found →
        target index user caller call = methodOf index found constructorName false) := by
  rw [target_of_form listed declared clear imports outside called,
    target_of_declared declared named resident]
  refine ⟨rfl, fun noClass => ?_, fun found bound => ?_⟩
  · rw [declaredAs, noClass]
    rfl
  · rw [declaredAs, bound]
    rfl

/-- A module that imports a function, or the module it is declared in, in all forms. -/
def importer : ReadDocument :=
  ⟨0, ⟨⟨.here, ["app.py"]⟩, "app", false⟩,
    [.importModules [⟨"top.mid.low", none⟩], .importModules [⟨"top.mid.low", some "u"⟩],
      .importFrom (some "top.mid.low") [⟨"load", some "h"⟩] 0,
      .importFrom (some "top.mid") [⟨"low", some "v"⟩] 0]⟩

/-- The importing module and the module of the function, two packages down. The outer package is
a module as well, and the inner one is not. -/
def importedFourTimes : List ReadDocument :=
  [importer, ⟨1, ⟨⟨.here, ["top", "__init__.py"]⟩, "top", true⟩, []⟩,
   ⟨2, ⟨⟨.here, ["top", "mid", "low.py"]⟩, "top.mid.low", false⟩,
    [.function ⟨1, "load", .none, [], [], none⟩]⟩]

theorem clearWay_importedFourTimes :
    ClearWay (SolutionIndex.addAll importedFourTimes {}).value "top.mid.low" := by
  have parts : Text.split "." "top.mid.low" = ["top", "mid", "low"] := by decide +kernel
  intro lead next rest nonempty split info listed
  rw [parts] at split
  rcases lead with _ | ⟨first, _ | ⟨second, _ | ⟨third, others⟩⟩⟩
  · exact absurd rfl nonempty
  · obtain ⟨rfl, rfl, rfl⟩ : "top" = first ∧ "mid" = next ∧ ["low"] = rest := by simpa using split
    cases listed
    exact ⟨rfl, rfl, rfl⟩
  · obtain ⟨rfl, rfl, rfl, rfl⟩ : "top" = first ∧ "mid" = second ∧ "low" = next ∧ [] = rest := by
      simpa using split
    cases listed
  · simp at split

theorem importsBy_importer {form : ImportForm}
    (among : form ∈ [ImportForm.whole, .renamed "u", .direct "h", .fromPackage "v"]) :
    ImportsBy (moduleInfo 0 importer.document importer.statements).value form "top.mid.low"
      "load" := by
  simp only [List.mem_cons, List.not_mem_nil, or_false] at among
  rcases among with rfl | rfl | rfl | rfl
  · exact ⟨trivial, ⟨⟨"top", none⟩, by decide +kernel, by decide +kernel⟩, rfl, rfl⟩
  · exact ⟨trivial, ⟨⟨"top.mid.low", none⟩, by decide +kernel, by decide +kernel⟩, rfl, rfl⟩
  · exact ⟨trivial, ⟨⟨"top.mid.low", some "load"⟩, by decide +kernel, by decide +kernel⟩, rfl, rfl⟩
  · have inside : 2 ≤ (Text.split "." "top.mid.low").length := by decide +kernel
    exact ⟨inside, ⟨⟨"top.mid", some "low"⟩, by decide +kernel, by decide +kernel⟩, rfl, rfl⟩

theorem import_forms_agree_fourTimes :
    (SolutionIndex.addAll importedFourTimes {}).value.module? "app" =
      some (moduleInfo 0 importer.document importer.statements).value ∧
    ∀ form ∈ [ImportForm.whole, .renamed "u", .direct "h", .fromPackage "v"],
      ∀ caller : Declaration, caller.owner = none →
        (target (SolutionIndex.addAll importedFourTimes {}).value
          (moduleInfo 0 importer.document importer.statements).value caller
          ⟨6, form.called "top.mid.low" "load"⟩).value =
            some ⟨"top.mid.low", "top.mid.low", "load"⟩ := by
  refine ⟨rfl, fun form among caller outside => ?_⟩
  exact (import_forms_agree (SolutionIndex.addAll importedFourTimes {}).value "top.mid.low" "load" _
    rfl (.inr (by decide +kernel)) clearWay_importedFourTimes form _ (importsBy_importer among)
    caller caller outside ⟨6, form.called "top.mid.low" "load"⟩ ⟨2, .name "load"⟩ rfl rfl).2.1 rfl

end Resolve

end CyclicCalls
