import CyclicCalls.Proofs.DeclaredTargets
/-!
# Relative imports

The dots in front of an import count packages, from the package of the document outwards. One
dot is that package, each further dot takes a part off its name, and an import whose dots leave
no part is an import from outside (`ruledModule?`).

`importedModule?` agrees with this rule except at one number of dots: where the dots have just
used up all parts, and a module part follows, the module part alone is taken for the name of a
module (`relative_imports_follow_rule_iff`). Such an import binds a module at the top that has
nothing to do with it, and a call through it resolves to a method there
(`climbing_import_binds_top_module`).
-/

set_option autoImplicit false

namespace CyclicCalls.Index

open Source Solution

/-- The parts of the package that relative imports of a document start from, outermost first. -/
def packageParts (document : Document) : List String :=
  if document.package = "" then [] else Text.split "." document.package

/-- The module part of an import, if it has one. An empty one counts as none. -/
def modulePart (moduleName : Option String) : List String :=
  moduleName.toList.filter (· != "")

/-- The module that a relative import names by the rule. -/
def ruledModule? (document : Document) (moduleName : Option String) (level : Nat) :
    Option String :=
  let parts := packageParts document
  if parts.length < level then none
  else some (Text.join "." (parts.take (parts.length - level + 1) ++ modulePart moduleName))

variable {document : Document} {moduleName : Option String} {level : Nat}

/-- With dots, an import keeps one part less of the package for each dot after the first. -/
theorem importedModule?_eq (dotted : 1 ≤ level) :
    importedModule? document moduleName level =
      if (packageParts document).length + 1 < level then none
      else
        let path := (packageParts document).take ((packageParts document).length + 1 - level) ++
          modulePart moduleName
        if path.isEmpty then none else some (Text.join "." path) := by
  have parts : (if document.package == "" then [] else Text.split "." document.package) =
      packageParts document := by
    simp only [packageParts, beq_iff_eq]
  have kept : (if 1 < (level : Int) then
        (packageParts document).take ((packageParts document).length - ((level : Int) - 1).toNat)
      else packageParts document) =
      (packageParts document).take ((packageParts document).length + 1 - level) := by
    split
    · congr 1
      omega
    · rw [List.take_of_length_le (by omega)]
  have far : ((packageParts document).length : Int) < (level : Int) - 1 ↔
      (packageParts document).length + 1 < level := by
    omega
  have level_ne : ((level : Int) == 0) = false := by
    simpa using Nat.ne_of_gt dotted
  simp only [importedModule?, level_ne, Bool.false_eq_true, if_false, parts, kept, far]
  rfl

/-- Inside the outermost package the rule is followed. -/
theorem importedModule?_of_le (dotted : 1 ≤ level)
    (inside : level ≤ (packageParts document).length) :
    importedModule? document moduleName level =
      some (Text.join "." ((packageParts document).take
        ((packageParts document).length - level + 1) ++ modulePart moduleName)) := by
  have count : (packageParts document).length + 1 - level =
      (packageParts document).length - level + 1 := by
    omega
  have nonempty : ((packageParts document).take ((packageParts document).length - level + 1) ++
      modulePart moduleName).isEmpty = false := by
    rw [List.isEmpty_eq_false_iff, ← List.length_pos_iff, List.length_append, List.length_take]
    omega
  rw [importedModule?_eq dotted, if_neg (by omega), count]
  simp only [nonempty, Bool.false_eq_true, if_false]

/-- Where the dots have just used up the package, the module part is left. -/
theorem importedModule?_of_eq (used : level = (packageParts document).length + 1) :
    importedModule? document moduleName level = (modulePart moduleName).head? := by
  rw [importedModule?_eq (by omega), if_neg (by omega), used, Nat.sub_self, List.take_zero,
    List.nil_append]
  cases moduleName with
  | none => rfl
  | some part =>
      by_cases empty : part = ""
      · simp [modulePart, empty]
      · simp [modulePart, empty, Text.join]

theorem importedModule?_of_lt (beyond : (packageParts document).length + 1 < level) :
    importedModule? document moduleName level = none := by
  rw [importedModule?_eq (by omega), if_pos beyond]

/-- The rule is missed at one number of dots only. -/
theorem importedModule?_eq_ruledModule?_iff (dotted : 1 ≤ level) :
    importedModule? document moduleName level = ruledModule? document moduleName level ↔
      ¬ (level = (packageParts document).length + 1 ∧ modulePart moduleName ≠ []) := by
  unfold ruledModule?
  rcases Nat.lt_trichotomy level ((packageParts document).length + 1) with below | used | beyond
  · have inside : level ≤ (packageParts document).length := Nat.le_of_lt_succ below
    simp [importedModule?_of_le dotted inside, Nat.not_lt.mpr inside, Nat.ne_of_lt below]
  · rw [importedModule?_of_eq used, if_pos (used ▸ Nat.lt_succ_self _)]
    simp [used]
  · simp [importedModule?_of_lt beyond, Nat.lt_of_succ_lt beyond, Nat.ne_of_gt beyond]

theorem importedModule?_eq_none_iff (dotted : 1 ≤ level) :
    importedModule? document moduleName level = none ↔
      (packageParts document).length < level ∧
        (level = (packageParts document).length + 1 → modulePart moduleName = []) := by
  rcases Nat.lt_trichotomy level ((packageParts document).length + 1) with below | used | beyond
  · have inside : level ≤ (packageParts document).length := Nat.le_of_lt_succ below
    simp [importedModule?_of_le dotted inside, Nat.not_lt.mpr inside]
  · rw [importedModule?_of_eq used]
    simp [used]
  · simp [importedModule?_of_lt beyond, Nat.lt_of_succ_lt beyond, Nat.ne_of_gt beyond]

/-- **When relative imports follow the rule.** An import with dots names the module that the rule
gives, unless its dots just use up the package and a module part is left over; then the name is
the module part. So it names nothing exactly if there are more dots than parts of the package,
this case apart, and inside the outermost package it names the parts that the dots leave,
followed by the module part. -/
theorem relative_imports_follow_rule_iff (document : Document) (moduleName : Option String)
    (level : Nat) (dotted : 1 ≤ level) :
    (importedModule? document moduleName level = ruledModule? document moduleName level ↔
      ¬ (level = (packageParts document).length + 1 ∧ modulePart moduleName ≠ [])) ∧
    (level = (packageParts document).length + 1 →
      importedModule? document moduleName level = (modulePart moduleName).head?) ∧
    (importedModule? document moduleName level = none ↔
      (packageParts document).length < level ∧
        (level = (packageParts document).length + 1 → modulePart moduleName = [])) ∧
    (level ≤ (packageParts document).length →
      importedModule? document moduleName level =
        some (Text.join "." ((packageParts document).take
          ((packageParts document).length - level + 1) ++ modulePart moduleName))) :=
  ⟨importedModule?_eq_ruledModule?_iff dotted, importedModule?_of_eq,
    importedModule?_eq_none_iff dotted, importedModule?_of_le dotted⟩

/-- A module two packages down. -/
def nestedModule : Document :=
  ⟨⟨.here, ["app", "web", "views.py"]⟩, "app.web.views", false⟩

theorem relative_imports_follow_rule_iff_nested :
    packageParts nestedModule = ["app", "web"] ∧
    importedModule? nestedModule (some "util") 2 = ruledModule? nestedModule (some "util") 2 ∧
    importedModule? nestedModule (some "util") 2 = some "app.util" := by
  have parts : packageParts nestedModule = ["app", "web"] := by decide +kernel
  obtain ⟨rule, -, -, inside⟩ :=
    relative_imports_follow_rule_iff nestedModule (some "util") 2 (by decide)
  rw [parts] at rule inside
  exact ⟨parts, rule.mpr (by decide), (inside (by decide)).trans (by decide +kernel)⟩

/-! ## An import that climbs out -/

/-- A module of a package, which imports from above the package, and a module at the top that has
the name it asks for. -/
def climbing : List ReadDocument :=
  [⟨0, ⟨⟨.here, ["app", "main.py"]⟩, "app.main", false⟩,
    [.importFrom (some "util") [⟨"load", none⟩] 2,
      .function ⟨3, "run", .none, [.simple [.call 4 (.name "load") [] []]], [], none⟩]⟩,
   ⟨1, ⟨⟨.here, ["util.py"]⟩, "util", false⟩,
    [.function ⟨1, "load", .none, [], [], none⟩]⟩]

/-- **An import from above the outermost package names a module at the top**, where the rule
gives none, and a call of what it binds resolves to a method of that module. -/
theorem climbing_import_binds_top_module :
    climbing.head?.map (fun read => (packageParts read.document,
      ruledModule? read.document (some "util") 2, importedModule? read.document (some "util") 2)) =
      some (["app"], none, some "util") ∧
    (modulesFrom 0 climbing).flatMap (fun entry => entry.2.declarations.flatMap
      (fun declaration => declaration.calls.map (fun call => (Resolve.target
        (SolutionIndex.addAll climbing {}).value entry.2 declaration call).value))) =
      [some ⟨"util", "util", "load"⟩] :=
  ⟨by decide +kernel, by decide +kernel⟩

end CyclicCalls.Index
