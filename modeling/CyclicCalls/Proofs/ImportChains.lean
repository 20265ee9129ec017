import CyclicCalls.Proofs.DeclaredTargets
import CyclicCalls.Proofs.RelativeImports
import CyclicCalls.Proofs.SeparatedText
/-!
# Chains of imports

A name that a module imports from another module may be imported there from a third one, and so
on, perhaps in a circle. One hop leads from a member of a module to the member it is imported
from (`handedOn?`), and a chain of imports goes on hop by hop (`afterHops`). It settles where a
module declares a class or a function of the name, or imports a module under it (`settled?`).

A name is resolved along its chain. Where the chain settles within sixteen hops, the name denotes
what it settles on. In all other cases every member of the chain after the first, up to the
sixteenth hop, is tried as the name of a submodule, and the last one that is one is what the name
denotes (`import_chains_are_followed`). In a circle of imports this is how a package comes by its
own submodules.
-/

set_option autoImplicit false

namespace CyclicCalls

open Source Solution Index

/-! ## Modules and imports of an index -/

namespace Index

/-- A module of the index has the name, or lies in the package of that name. -/
def SolutionIndex.HasModule (index : SolutionIndex) (name : String) : Prop :=
  ∃ known ∈ index.modules.names, known = name ∨ ∃ rest, known = name ++ "." ++ rest

theorem SolutionIndex.isModule_iff {index : SolutionIndex} {name : String} :
    index.isModule name = true ↔ index.HasModule name := by
  have starts (known : String) : Text.startsWith (name ++ ".") known = true ↔
      ∃ rest, known = name ++ "." ++ rest := by
    rw [Text.startsWith, List.isPrefixOf_iff_prefix]
    constructor
    · rintro ⟨rest, same⟩
      refine ⟨String.ofList rest, ?_⟩
      rw [← String.toList_inj, ← same]
      simp
    · rintro ⟨rest, rfl⟩
      exact ⟨rest.toList, (String.toList_append ..).symm⟩
  simp only [isModule, HasModule, List.any_eq_true, Bool.or_eq_true, beq_iff_eq, starts]

/-- Under a name, the index holds a module of that name. -/
theorem SolutionIndex.name_of_module? {reads : List ReadDocument} {name : String}
    {info : ModuleInfo} (listed : (addAll reads {}).value.module? name = some info) :
    info.name = name := by
  obtain ⟨entry, found, rfl⟩ := Option.map_eq_some_iff.mp (module?_eq reads name ▸ listed)
  have named := List.find?_some found
  exact beq_iff_eq.mp named

/-- A module binds a name as the given import does. -/
def ModuleInfo.BindsBy (info : ModuleInfo) (statement : Outline) (name : String) : Prop :=
  ∃ binding, (name, binding) ∈ (importsOf info.document [statement]).value ∧
    info.imports.find? name = some binding

/-- An import of one member binds it as a member of the module that the import names. -/
theorem ModuleInfo.BindsBy.importFrom {info : ModuleInfo} {moduleName : Option String}
    {item name : String} {asName : Option String} {level : Nat}
    (binds : info.BindsBy (.importFrom moduleName [⟨item, asName⟩] level) name) :
    ∃ found, importedModule? info.document moduleName level = some found ∧
      info.imports.find? name = some ⟨found, some item⟩ := by
  obtain ⟨binding, bound, imported⟩ := binds
  rw [importsOf] at bound
  split at bound
  · rename_i found source
    rw [Logged.value_bind, importsOf, Logged.value_pure, Logged.value_pure, List.append_nil,
      memberBindings, List.mem_map] at bound
    obtain ⟨given, among, same⟩ := bound
    obtain rfl := List.mem_singleton.mp (List.mem_of_mem_filter among)
    cases same
    exact ⟨found, source, imported⟩
  · exact nomatch bound

end Index

namespace Resolve

/-! ## Chains -/

/-- A member of a module. -/
structure Member where
  moduleName : String
  name : String
deriving DecidableEq, Repr

/-- The name that a member has as a submodule. -/
def Member.submodule (member : Member) : String :=
  member.moduleName ++ "." ++ member.name

/-- The class or the function that a member is declared as, or else the module that is imported
under its name. -/
def settled? (index : SolutionIndex) (member : Member) : Option Entity := do
  let info ← index.module? member.moduleName
  match info.classes.find? member.name, info.functions.find? member.name,
    info.imports.find? member.name with
  | some found, _, _ => some (.class found)
  | none, some _, _ => some (.function member.moduleName member.name)
  | none, none, some ⟨moduleName, none⟩ => some (.module moduleName)
  | none, none, _ => none

/-- The member of another module that a member is imported from, when its module declares neither
a class nor a function of its name. -/
def handedOn? (index : SolutionIndex) (member : Member) : Option Member := do
  let info ← index.module? member.moduleName
  match info.classes.find? member.name, info.functions.find? member.name,
    info.imports.find? member.name with
  | none, none, some ⟨moduleName, some name⟩ => some ⟨moduleName, name⟩
  | _, _, _ => none

/-- The member that the chain of imports has come to after the given number of hops. -/
def afterHops (index : SolutionIndex) (member : Member) : Nat → Option Member
  | 0 => some member
  | hops + 1 => (handedOn? index member).bind (afterHops index · hops)

variable {index : SolutionIndex}

/-- What a name denotes at the scope of a module, by whether its chain settles there or goes
on. -/
theorem nameIn_eq (follow : String → String → Logged (Option Entity)) {member : Member}
    {info : ModuleInfo} (listed : index.module? member.moduleName = some info)
    (named : info.name = member.moduleName) :
    nameIn follow info member.name =
      match handedOn? index member with
      | some next => follow next.moduleName next.name
      | none => pure (settled? index member) := by
  unfold nameIn settled? handedOn? Bindings.contains
  rw [listed, named]
  simp only [Option.bind_eq_bind, Option.bind_some]
  cases info.classes.find? member.name with
  | some found => rfl
  | none =>
      cases info.functions.find? member.name with
      | some line => rfl
      | none =>
          cases info.imports.find? member.name with
          | none => rfl
          | some binding =>
              obtain ⟨moduleName, _ | name⟩ := binding
              · rfl
              · rfl

/-- A chain does not go on where it settles. -/
theorem settled?_of_handedOn? {member next : Member} (hop : handedOn? index member = some next) :
    settled? index member = none := by
  unfold handedOn? at hop
  unfold settled?
  obtain ⟨info, listed, hop⟩ := Option.bind_eq_some_iff.mp hop
  rw [listed]
  split at hop
  · rename_i classes functions imports
    simp [classes, functions, imports]
  · cases hop

theorem afterHops_succ {member next : Member} (hop : handedOn? index member = some next)
    (hops : Nat) : afterHops index member (hops + 1) = afterHops index next hops := by
  rw [afterHops, hop, Option.bind_some]

/-- The chain of a member does not settle before the given number of hops. -/
def Unsettled (index : SolutionIndex) (member : Member) (hops : Nat) : Prop :=
  ∀ fewer < hops, ∀ last, afterHops index member fewer = some last → settled? index last = none

theorem Unsettled.next {member next : Member} {hops : Nat}
    (unsettled : Unsettled index member (hops + 1)) (hop : handedOn? index member = some next) :
    Unsettled index next hops := by
  intro fewer within last reached
  exact unsettled (fewer + 1) (Nat.succ_lt_succ within) last (afterHops_succ hop fewer ▸ reached)

/-! ## Resolution along a chain -/

/-- The submodule that stands in for a member is found without further notice. -/
theorem memberOf_events (steps : Nat) (moduleName name : String) :
    (memberOf index (steps + 1) moduleName name).events =
      (index.module? moduleName).elim []
        fun info => (nameIn (memberOf index steps) info name).events := by
  rw [memberOf]
  cases index.module? moduleName with
  | none => rfl
  | some info =>
      rw [Logged.events_bind, Option.elim_some]
      cases (nameIn (memberOf index steps) info name).value with
      | none => exact List.append_nil _
      | some entity => exact List.append_nil _

section Following

variable (named : ∀ name info, index.module? name = some info → info.name = name)

include named

/-- At the scope of its module, a member is what its chain settles on at once, or what the next
member is found to be. -/
theorem value_nameIn (steps : Nat) {member : Member} {info : ModuleInfo}
    (listed : index.module? member.moduleName = some info) :
    (nameIn (memberOf index steps) info member.name).value =
      (settled? index member).or ((handedOn? index member).bind
        fun next => (memberOf index steps next.moduleName next.name).value) := by
  rw [nameIn_eq _ listed (named _ info listed)]
  cases hop : handedOn? index member with
  | none => simp
  | some next => simp [settled?_of_handedOn? hop]

/-- A member is what it is at the scope of its module, or else the submodule of its name. -/
theorem memberOf_step (steps : Nat) (member : Member) :
    (memberOf index (steps + 1) member.moduleName member.name).value =
      ((settled? index member).or ((handedOn? index member).bind
        fun next => (memberOf index steps next.moduleName next.name).value)).or
        (if index.isModule member.submodule then some (.module member.submodule) else none) := by
  rw [memberOf_value]
  cases listed : index.module? member.moduleName with
  | none =>
      simp only [settled?, handedOn?, listed, Option.bind_eq_bind, Option.bind_none, Option.or_none]
      rfl
  | some info =>
      rw [Option.bind_some, value_nameIn named steps listed]
      rfl

/-- Where the chain settles within the steps that are left, its member is found. -/
theorem memberOf_of_settled {steps hops : Nat} {member last : Member} {entity : Entity}
    (reached : afterHops index member hops = some last)
    (settles : settled? index last = some entity) (within : hops < steps) :
    (memberOf index steps member.moduleName member.name).value = some entity := by
  induction hops generalizing member steps with
  | zero =>
      obtain ⟨left, rfl⟩ := Nat.exists_eq_add_one_of_ne_zero (Nat.ne_zero_of_lt within)
      obtain rfl := Option.some.inj reached
      rw [memberOf_step named, settles, Option.some_or, Option.some_or]
  | succ hops ih =>
      obtain ⟨left, rfl⟩ := Nat.exists_eq_add_one_of_ne_zero (Nat.ne_zero_of_lt within)
      obtain ⟨next, hop, onward⟩ := Option.bind_eq_some_iff.mp reached
      rw [memberOf_step named, hop, Option.bind_some, ih onward (Nat.lt_of_succ_lt_succ within),
        settled?_of_handedOn? hop, Option.none_or, Option.some_or]

/-- Where the chain does not settle and no member of it is a submodule, nothing is found. -/
theorem memberOf_eq_none {steps : Nat} {member : Member} (unsettled : Unsettled index member steps)
    (none_there : ∀ hops < steps, ∀ last, afterHops index member hops = some last →
      ¬ index.HasModule last.submodule) :
    (memberOf index steps member.moduleName member.name).value = none := by
  induction steps generalizing member with
  | zero => rfl
  | succ steps ih =>
      have absent : ¬ index.isModule member.submodule = true :=
        mt SolutionIndex.isModule_iff.mp (none_there 0 (Nat.succ_pos steps) member rfl)
      have onward : ((handedOn? index member).bind
          fun next => (memberOf index steps next.moduleName next.name).value) = none := by
        refine Option.bind_eq_none_iff.mpr fun next hop => ih (unsettled.next hop) ?_
        intro hops within last reached
        exact none_there (hops + 1) (Nat.succ_lt_succ within) last (afterHops_succ hop _ ▸ reached)
      rw [memberOf_step named, unsettled 0 (Nat.succ_pos steps) member rfl, onward, if_neg absent]
      rfl

/-- Where the chain does not settle, the last member of it that is a submodule is found. -/
theorem memberOf_of_submodule {steps hops : Nat} {member last : Member}
    (unsettled : Unsettled index member steps) (within : hops < steps)
    (reached : afterHops index member hops = some last) (there : index.HasModule last.submodule)
    (none_after : ∀ more later, hops < more → more < steps →
      afterHops index member more = some later → ¬ index.HasModule later.submodule) :
    (memberOf index steps member.moduleName member.name).value =
      some (.module last.submodule) := by
  induction hops generalizing member steps with
  | zero =>
      obtain ⟨left, rfl⟩ := Nat.exists_eq_add_one_of_ne_zero (Nat.ne_zero_of_lt within)
      obtain rfl := Option.some.inj reached
      have onward : ((handedOn? index member).bind
          fun next => (memberOf index left next.moduleName next.name).value) = none := by
        refine Option.bind_eq_none_iff.mpr fun next hop =>
          memberOf_eq_none named (unsettled.next hop) ?_
        intro more within later reached
        exact none_after (more + 1) later (Nat.succ_pos more) (Nat.succ_lt_succ within)
          (afterHops_succ hop _ ▸ reached)
      rw [memberOf_step named, unsettled 0 within member rfl, onward,
        if_pos (SolutionIndex.isModule_iff.mpr there)]
      rfl
  | succ hops ih =>
      obtain ⟨left, rfl⟩ := Nat.exists_eq_add_one_of_ne_zero (Nat.ne_zero_of_lt within)
      obtain ⟨next, hop, onward⟩ := Option.bind_eq_some_iff.mp reached
      have found := ih (unsettled.next hop) (Nat.lt_of_succ_lt_succ within) onward
        fun more later after within reached => none_after (more + 1) later (Nat.succ_lt_succ after)
          (Nat.succ_lt_succ within) (afterHops_succ hop _ ▸ reached)
      rw [memberOf_step named, hop, Option.bind_some, found, settled?_of_handedOn? hop,
        Option.none_or, Option.some_or]

/-! ## Names

A name is resolved at the scope of its module like a member, except that no submodule stands in
for it there: only from the first hop on are submodules tried. -/

section Names

variable {member : Member} {info : ModuleInfo}
  (listed : index.module? member.moduleName = some info)

include listed

theorem nameIn_of_settled {steps hops : Nat} {last : Member} {entity : Entity}
    (reached : afterHops index member hops = some last)
    (settles : settled? index last = some entity) (within : hops ≤ steps) :
    (nameIn (memberOf index steps) info member.name).value = some entity := by
  rw [value_nameIn named steps listed]
  cases hops with
  | zero =>
      obtain rfl := Option.some.inj reached
      rw [settles, Option.some_or]
  | succ hops =>
      obtain ⟨next, hop, onward⟩ := Option.bind_eq_some_iff.mp reached
      rw [settled?_of_handedOn? hop, Option.none_or, hop, Option.bind_some]
      exact memberOf_of_settled named onward settles within

theorem nameIn_of_submodule {steps hops : Nat} {last : Member}
    (unsettled : Unsettled index member (steps + 1)) (after : 1 ≤ hops) (within : hops ≤ steps)
    (reached : afterHops index member hops = some last) (there : index.HasModule last.submodule)
    (none_after : ∀ more later, hops < more → more ≤ steps →
      afterHops index member more = some later → ¬ index.HasModule later.submodule) :
    (nameIn (memberOf index steps) info member.name).value = some (.module last.submodule) := by
  obtain ⟨fewer, rfl⟩ := Nat.exists_eq_add_one_of_ne_zero (Nat.ne_of_gt after)
  obtain ⟨next, hop, onward⟩ := Option.bind_eq_some_iff.mp reached
  rw [value_nameIn named steps listed, settled?_of_handedOn? hop, Option.none_or, hop,
    Option.bind_some]
  apply memberOf_of_submodule named (unsettled.next hop) within onward there
  intro more later beyond within reached
  exact none_after (more + 1) later (Nat.succ_lt_succ beyond) within
    (afterHops_succ hop more ▸ reached)

theorem nameIn_eq_none {steps : Nat} (unsettled : Unsettled index member (steps + 1))
    (none_there : ∀ hops last, 1 ≤ hops → hops ≤ steps → afterHops index member hops = some last →
      ¬ index.HasModule last.submodule) :
    (nameIn (memberOf index steps) info member.name).value = none := by
  rw [value_nameIn named steps listed, unsettled 0 (Nat.succ_pos steps) member rfl, Option.none_or]
  refine Option.bind_eq_none_iff.mpr fun next hop => memberOf_eq_none named (unsettled.next hop) ?_
  intro hops within last reached
  exact none_there (hops + 1) last (Nat.succ_pos hops) within (afterHops_succ hop hops ▸ reached)

end Names

/-- At the scope of a module nothing is reported but what is reported of the next member. -/
theorem events_nameIn {steps : Nat} {member : Member} {info : ModuleInfo}
    (listed : index.module? member.moduleName = some info)
    (onward : ∀ next : Member, (memberOf index steps next.moduleName next.name).events =
      ((afterHops index next steps).map
        fun last => .importChainTooDeep last.moduleName last.name).toList) :
    (nameIn (memberOf index steps) info member.name).events =
      ((afterHops index member (steps + 1)).map
        fun last => .importChainTooDeep last.moduleName last.name).toList := by
  rw [nameIn_eq _ listed (named _ info listed), afterHops]
  cases handedOn? index member with
  | none => rfl
  | some next => exact onward next

/-- A chain that goes on when the steps are used up is reported, and nothing else is. -/
theorem events_memberOf (steps : Nat) (member : Member) :
    (memberOf index steps member.moduleName member.name).events =
      ((afterHops index member steps).map
        fun last => .importChainTooDeep last.moduleName last.name).toList := by
  induction steps generalizing member with
  | zero => rfl
  | succ steps ih =>
      rw [memberOf_events]
      cases listed : index.module? member.moduleName with
      | none => simp [afterHops, handedOn?, listed]
      | some info => exact events_nameIn named listed ih

end Following

/-! ## Imports of a package from itself -/

/-- The module that a package file imports from with one dot is the package. -/
theorem eq_of_importedModule?_package {document : Document} (package : document.isPackage = true)
    {found : String} (named : importedModule? document none (1 : Nat) = some found) :
    found = document.moduleName := by
  have own : document.package = document.moduleName := if_pos package
  by_cases top : document.package = ""
  · have parts : packageParts document = [] := if_pos top
    rw [importedModule?_of_eq (by rw [parts]; rfl)] at named
    cases named
  · have parts : packageParts document = Text.split "." document.package := if_neg top
    have joined : Text.join "." (packageParts document) = document.package :=
      parts ▸ Text.join_split (by decide) document.package
    have nonempty : 1 ≤ (packageParts document).length := by
      rw [Nat.one_le_iff_ne_zero, ne_eq, List.length_eq_zero_iff]
      intro empty
      exact top (joined ▸ empty ▸ rfl)
    rw [importedModule?_of_le (Nat.le_refl 1) nonempty, Nat.sub_add_cancel nonempty,
      List.take_length] at named
    simp only [modulePart, Option.toList_none, List.filter_nil, List.append_nil, joined, own,
      Option.some.injEq] at named
    exact named.symm

/-- A package file that imports a name from its own package hands the name on to itself. -/
theorem handedOn?_package {member : Member} {info : ModuleInfo}
    (listed : index.module? member.moduleName = some info)
    (named : info.name = member.moduleName) (package : info.document.isPackage = true)
    (binds : info.BindsBy (.importFrom none [⟨member.name, none⟩] 1) member.name)
    (noClass : info.classes.find? member.name = none)
    (noFunction : info.functions.find? member.name = none) :
    handedOn? index member = some member := by
  obtain ⟨found, source, imported⟩ := binds.importFrom
  have home : found = member.moduleName :=
    (eq_of_importedModule?_package package source).trans named
  simp [handedOn?, listed, noClass, noFunction, imported, home]

theorem afterHops_of_handedOn?_self {member : Member} (hop : handedOn? index member = some member)
    (hops : Nat) : afterHops index member hops = some member := by
  induction hops with
  | zero => rfl
  | succ hops ih => rw [afterHops_succ hop, ih]

/-- **Chains of imports are followed up to sixteen hops**, from any name in any module of an index
that documents were entered into. A name denotes what its chain settles on. If the chain does not
settle within sixteen hops, the name denotes the submodule of the last member after the first
that has one, and nothing if none of them has one. A chain that goes on after the sixteenth hop
is reported where it is left, and no other is. In particular a package file that imports a name
from its own package, and does not declare it, gets the submodule of that name. -/
theorem import_chains_are_followed (reads : List ReadDocument) (start : Member) (info : ModuleInfo)
    (listed : (SolutionIndex.addAll reads {}).value.module? start.moduleName = some info) :
    let index := (SolutionIndex.addAll reads {}).value
    let resolved := expression index (stepsAt 0) info (.name start.name)
    (∀ hops ≤ 16, ∀ last entity, afterHops index start hops = some last →
      settled? index last = some entity → resolved.value = some entity) ∧
    (Unsettled index start 17 →
      (∀ hops last, 1 ≤ hops → hops ≤ 16 → afterHops index start hops = some last →
        index.HasModule last.submodule →
        (∀ more later, hops < more → more ≤ 16 → afterHops index start more = some later →
          ¬ index.HasModule later.submodule) →
        resolved.value = some (.module last.submodule)) ∧
      ((∀ hops last, 1 ≤ hops → hops ≤ 16 → afterHops index start hops = some last →
        ¬ index.HasModule last.submodule) → resolved.value = none)) ∧
    resolved.events = ((afterHops index start 17).map
      fun last => .importChainTooDeep last.moduleName last.name).toList ∧
    (info.document.isPackage = true →
      info.BindsBy (.importFrom none [⟨start.name, none⟩] 1) start.name →
      info.classes.find? start.name = none → info.functions.find? start.name = none →
      index.HasModule start.submodule → resolved.value = some (.module start.submodule)) := by
  intro index resolved
  have named : ∀ name info, index.module? name = some info → info.name = name :=
    fun _ _ => SolutionIndex.name_of_module?
  refine ⟨fun hops within last entity reached settles =>
      nameIn_of_settled named listed reached settles within,
    fun unsettled => ⟨fun hops last after within reached there none_after =>
      nameIn_of_submodule named listed unsettled after within reached there none_after,
      nameIn_eq_none named listed unsettled⟩,
    events_nameIn named listed (events_memberOf named 16), ?_⟩
  intro package binds noClass noFunction there
  have circle := handedOn?_package listed (named _ info listed) package binds noClass noFunction
  have unsettled : Unsettled index start 17 := by
    intro hops _ last reached
    obtain rfl := Option.some.inj ((afterHops_of_handedOn?_self circle hops).symm.trans reached)
    exact settled?_of_handedOn? circle
  -- The circle is left at the bound, and there is no hop after that.
  exact nameIn_of_submodule named listed unsettled (by decide) (Nat.le_refl 16)
    (afterHops_of_handedOn?_self circle 16) there
    fun more later beyond within _ => absurd within (Nat.not_le.mpr beyond)

/-- A package that offers a function of one of its modules, and that module by its name, and a
module that imports the function from the package. -/
def offeredFunction : List ReadDocument :=
  [⟨0, ⟨⟨.here, ["app.py"]⟩, "app", false⟩, [.importFrom (some "pkg") [⟨"load", none⟩] 0]⟩,
   ⟨1, ⟨⟨.here, ["pkg", "__init__.py"]⟩, "pkg", true⟩,
    [.importFrom none [⟨"parts", none⟩] 1, .importFrom (some "parts") [⟨"load", none⟩] 1]⟩,
   ⟨2, ⟨⟨.here, ["pkg", "parts.py"]⟩, "pkg.parts", false⟩,
    [.function ⟨1, "load", .none, [], [], none⟩]⟩]

theorem import_chains_are_followed_offered :
    (∃ info, (SolutionIndex.addAll offeredFunction {}).value.module? "app" = some info ∧
      (expression (SolutionIndex.addAll offeredFunction {}).value (stepsAt 0) info
        (.name "load")).value = some (.function "pkg.parts" "load")) ∧
    ∃ info, (SolutionIndex.addAll offeredFunction {}).value.module? "pkg" = some info ∧
      (expression (SolutionIndex.addAll offeredFunction {}).value (stepsAt 0) info
        (.name "parts")).value = some (.module "pkg.parts") := by
  refine ⟨⟨_, rfl, ?_⟩, ⟨_, rfl, ?_⟩⟩
  · exact (import_chains_are_followed offeredFunction ⟨"app", "load"⟩ _ rfl).1 2 (by decide)
      ⟨"pkg.parts", "load"⟩ _ (by decide +kernel) rfl
  · exact (import_chains_are_followed offeredFunction ⟨"pkg", "parts"⟩ _ rfl).2.2.2 rfl
      ⟨⟨"pkg", some "parts"⟩, by decide +kernel, by decide +kernel⟩ rfl rfl
      ⟨"pkg.parts", by decide +kernel, .inl rfl⟩

end Resolve

end CyclicCalls
