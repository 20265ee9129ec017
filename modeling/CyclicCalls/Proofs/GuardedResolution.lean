import CyclicCalls.Proofs.DeclaredTargets
import Mathlib.Data.List.Perm.Subperm
/-!
# Resolution with guarded steps

Many steps of resolution rely on something being there. A name is looked up in a module and a
method in a class; the class that a name is bound to is fetched after the name was found bound;
the receiver of a method is the first of its parameters; and the search for base classes goes
on until every class was visited. `Resolve.target` is written with total operations, so none of
these steps can fail in it. Here the steps are written with operations that fail when nothing is
there, and modules and classes are passed on as they are found, so that a missing one would be
met where it is used.

No step fails, in any index (`guardedTarget_eq`). The only argument is about base classes. A
class that the search comes to is the one it started from or a class of a module of the index,
and no class is visited twice, so the visits that `ancestors` allows are enough
(`Visiting.exhausted`).
-/

set_option autoImplicit false

namespace CyclicCalls

open Source Index

/-- A value that a step relies on, or else the fault. -/
def demand {ε α : Type} (fault : ε) : Option α → Except ε α
  | some value => .ok value
  | none => .error fault

@[simp]
theorem demand_some {ε α : Type} (fault : ε) (value : α) :
    demand fault (some value) = .ok value :=
  rfl

@[simp]
theorem ok_bind {ε α β : Type} (value : α) (next : α → Except ε β) :
    (Except.ok value >>= next) = next value :=
  rfl

/-! ## The classes of an index -/

namespace Index

mutual

/-- A class and all classes in it. -/
def ClassInfo.all : ClassInfo → List ClassInfo
  | ⟨id, moduleName, name, line, bases, methods, ⟨nested⟩⟩ =>
    ⟨id, moduleName, name, line, bases, methods, ⟨nested⟩⟩ :: allClassesOf nested

/-- The classes of a list and all classes in them. -/
def allClassesOf : List (String × ClassInfo) → List ClassInfo
  | [] => []
  | (_, info) :: rest => info.all ++ allClassesOf rest

end

mutual

theorem length_all : (info : ClassInfo) → info.all.length = info.count
  | ⟨_, _, _, _, _, _, ⟨nested⟩⟩ => by
      rw [ClassInfo.all, ClassInfo.count, List.length_cons, length_allClassesOf nested,
        Nat.add_comm]

theorem length_allClassesOf : (entries : List (String × ClassInfo)) →
    (allClassesOf entries).length = countClasses entries
  | [] => rfl
  | (_, info) :: rest => by
      rw [allClassesOf, countClasses, List.length_append, length_all info,
        length_allClassesOf rest]

end

theorem mem_all_self (info : ClassInfo) : info ∈ info.all := by
  obtain ⟨_, _, _, _, _, _, ⟨_⟩⟩ := info
  rw [ClassInfo.all]
  exact List.mem_cons_self

theorem mem_allClassesOf {entries : List (String × ClassInfo)} {name : String}
    {found : ClassInfo} (among : (name, found) ∈ entries) : found ∈ allClassesOf entries := by
  induction entries with
  | nil => exact nomatch among
  | cons entry rest ih =>
      rw [allClassesOf, List.mem_append]
      rcases List.mem_cons.mp among with rfl | later
      · exact .inl (mem_all_self found)
      · exact .inr (ih later)

mutual

theorem nested_mem_all : (info : ClassInfo) → {found inner : ClassInfo} → {name : String} →
    found ∈ info.all → found.nested.find? name = some inner → inner ∈ info.all
  | ⟨_, _, _, _, _, _, ⟨nested⟩⟩, found, inner, name, among, bound => by
      rw [ClassInfo.all, List.mem_cons] at among ⊢
      rcases among with rfl | within
      · exact .inr (mem_allClassesOf (mem_of_lookup bound))
      · exact .inr (nested_mem_allClassesOf nested within bound)

theorem nested_mem_allClassesOf : (entries : List (String × ClassInfo)) →
    {found inner : ClassInfo} → {name : String} → found ∈ allClassesOf entries →
    found.nested.find? name = some inner → inner ∈ allClassesOf entries
  | [], _, _, _, among, _ => nomatch among
  | (_, info) :: rest, found, inner, name, among, bound => by
      rw [allClassesOf, List.mem_append] at among ⊢
      exact among.imp (nested_mem_all info · bound) (nested_mem_allClassesOf rest · bound)

end

namespace SolutionIndex

/-- The classes of the modules that the index finds by name. -/
def allClasses (index : SolutionIndex) : List ClassInfo :=
  index.modules.entries.flatMap (fun entry => allClassesOf entry.2.classes.entries)

theorem length_allClasses (index : SolutionIndex) :
    index.allClasses.length = index.classCount := by
  unfold allClasses classCount
  induction index.modules.entries with
  | nil => rfl
  | cons entry rest ih =>
      rw [List.flatMap_cons, List.length_append, length_allClassesOf, ih, List.foldr_cons]

end SolutionIndex

end Index

namespace Resolve

/-- A class is one of the index. Nothing is said of functions and modules. -/
def Entity.Listed (index : SolutionIndex) : Entity → Prop
  | .class found => found ∈ index.allClasses
  | _ => True

theorem handedOn_listed (index : SolutionIndex) : HandedOn index (Entity.Listed index) where
  modules _ := trivial
  bound name info listed :=
    { classes := fun bound found binding =>
        List.mem_flatMap.mpr ⟨(name, info), mem_of_lookup listed,
          mem_allClassesOf (mem_of_lookup binding)⟩
      functions := fun _ _ => trivial }
  nested found name inner among bound := by
    obtain ⟨entry, held, within⟩ := List.mem_flatMap.mp among
    exact List.mem_flatMap.mpr ⟨entry, held, nested_mem_allClassesOf _ within bound⟩

/-! ## Names and expressions -/

/-- What a step of resolution can miss. -/
inductive Fault where
  /-- A name is looked up in a module that is not there. -/
  | noModule
  /-- A method is looked up in a class that is not there. -/
  | noClass
  /-- The value of a name is fetched, and the name is not bound. -/
  | unbound (name : String)
  /-- The first of no parameters is asked for. -/
  | noParameter
  /-- The visits are used up, and a class is still to be visited. -/
  | unfinished (info : ClassInfo)

/-- What a name denotes at the scope of a module, which has to be there. -/
def guardedNameIn (follow : String → String → Except Fault (Option Entity))
    (home : Option ModuleInfo) (name : String) : Except Fault (Option Entity) := do
  let info ← demand .noModule home
  if info.classes.contains name then do
    let found ← demand (.unbound name) (info.classes.find? name)
    .ok (some (.class found))
  else if info.functions.contains name then .ok (some (.function info.name name))
  else
    match info.imports.find? name with
    | none => .ok none
    | some ⟨moduleName, none⟩ => .ok (some (.module moduleName))
    | some ⟨moduleName, some member⟩ => follow moduleName member

/-- What a member of a module denotes. The module is looked into when it is there. -/
def guardedMemberOf (index : SolutionIndex) :
    Nat → String → String → Except Fault (Option Entity)
  | 0, _, _ => .ok none
  | steps + 1, moduleName, member => do
    let home := index.module? moduleName
    let found ← if home.isSome then guardedNameIn (guardedMemberOf index steps) home member
      else .ok none
    match found with
    | some entity => .ok (some entity)
    | none =>
      let submodule := moduleName ++ "." ++ member
      .ok (if index.isModule submodule then some (.module submodule) else none)

/-- What a name or a chain of attributes denotes at the scope of a module. -/
def guardedExpression (index : SolutionIndex) (steps : Nat) (home : Option ModuleInfo) :
    Expr → Except Fault (Option Entity)
  | .name id => guardedNameIn (guardedMemberOf index (steps - 1)) home id
  | .attribute value attr => do
    match ← guardedExpression index steps home value with
    | some (.module moduleName) => guardedMemberOf index steps moduleName attr
    | some (.class found) => .ok ((found.nested.find? attr).map .class)
    | _ => .ok none
  | _ => .ok none

theorem guardedNameIn_eq {guardedFollow : String → String → Except Fault (Option Entity)}
    {follow : String → String → Logged (Option Entity)}
    (followed : ∀ moduleName member,
      guardedFollow moduleName member = .ok (follow moduleName member).value)
    (info : ModuleInfo) (name : String) :
    guardedNameIn guardedFollow (some info) name = .ok (nameIn follow info name).value := by
  rw [guardedNameIn, demand_some, ok_bind]
  unfold nameIn Bindings.contains
  cases info.classes.find? name with
  | some found => rfl
  | none =>
      rw [Option.isSome_none, if_neg Bool.false_ne_true]
      by_cases declared : (info.functions.find? name).isSome
      · simp only [declared, if_true]
        rfl
      · simp only [declared]
        cases info.imports.find? name with
        | none => rfl
        | some binding =>
            obtain ⟨moduleName, _ | member⟩ := binding
            · rfl
            · exact followed moduleName member

theorem guardedMemberOf_eq (index : SolutionIndex) (steps : Nat) (moduleName member : String) :
    guardedMemberOf index steps moduleName member =
      .ok (memberOf index steps moduleName member).value := by
  induction steps generalizing moduleName member with
  | zero => rfl
  | succ steps ih =>
      rw [guardedMemberOf, memberOf_value]
      cases index.module? moduleName with
      | none => rfl
      | some info =>
          simp only [Option.isSome_some, if_true, guardedNameIn_eq ih, Option.bind_some, ok_bind]
          cases (nameIn (memberOf index steps) info member).value with
          | none => rfl
          | some entity => rfl

theorem guardedExpression_eq (index : SolutionIndex) (steps : Nat) (info : ModuleInfo)
    (given : Expr) :
    guardedExpression index steps (some info) given =
      .ok (expression index steps info given).value := by
  fun_induction expression index steps info given with
  | case1 id => exact guardedNameIn_eq (guardedMemberOf_eq index (steps - 1)) info id
  | case2 value attr ih =>
      rw [guardedExpression, ih, Logged.value_bind, ok_bind]
      cases (expression index steps info value).value with
      | none => rfl
      | some entity =>
          cases entity with
          | module moduleName => exact guardedMemberOf_eq index steps moduleName attr
          | function moduleName name => rfl
          | «class» found => rfl
  | case3 given notName notAttribute =>
      rw [guardedExpression]
      · rfl
      · exact notName
      · exact notAttribute

/-! ## Base classes -/

/-- The base classes of a class. Its module is looked into when it is there. -/
def guardedBasesOf (index : SolutionIndex) (info : ClassInfo) :
    Except Fault (List ClassInfo) := do
  let home := index.module? info.moduleName
  let entities ← info.bases.mapM (fun base =>
    if home.isSome then guardedExpression index (stepsAt 0) home base else .ok none)
  .ok (classes entities)

/-- The classes to be visited and those they lead to. The visits have to be enough. -/
def guardedAncestorsFrom (index : SolutionIndex) :
    Nat → List ClassInfo → List ClassId → Except Fault (List ClassInfo)
  | 0, pending, seen =>
    match pending.dropWhile (fun info => seen.contains info.id) with
    | [] => .ok []
    | info :: _ => .error (.unfinished info)
  | visits + 1, pending, seen =>
    match pending.dropWhile (fun info => seen.contains info.id) with
    | [] => .ok []
    | info :: rest => do
      let bases ← guardedBasesOf index info
      let others ← guardedAncestorsFrom index visits (bases ++ rest) (info.id :: seen)
      .ok (info :: others)

theorem guardedBasesOf_eq (index : SolutionIndex) (info : ClassInfo) :
    guardedBasesOf index info = .ok (basesOf index info).value := by
  unfold guardedBasesOf basesOf
  cases index.module? info.moduleName with
  | none =>
      show (info.bases.mapM (fun _ => pure none) >>= _ : Except Fault (List ClassInfo)) = _
      rw [List.mapM_pure]
      show Except.ok (classes (info.bases.map (fun _ => none))) = .ok []
      simp [classes]
  | some home =>
      simp only [Option.isSome_some, if_true, guardedExpression_eq]
      show (info.bases.mapM (fun base => pure (expression index (stepsAt 0) home base).value) >>= _
        : Except Fault (List ClassInfo)) = _
      rw [List.mapM_pure, Logged.value_bind, Logged.value_mapM]
      rfl

/-- How far a search for base classes has come: the classes seen are all different, they and
the classes to be visited are among the given ones, and every one of these that was not seen
can still be visited. -/
structure Visiting (ids : List ClassId) (visits : Nat) (pending : List ClassInfo)
    (seen : List ClassId) : Prop where
  distinct : seen.Nodup
  within : seen ⊆ ids
  leads : ∀ info ∈ pending, info.id ∈ ids
  enough : ids.length ≤ visits + seen.length

namespace Visiting

variable {index : SolutionIndex} {ids : List ClassId} {visits : Nat} {pending : List ClassInfo}
  {seen : List ClassId}

/-- The classes that can be come to from a class, the class itself included. -/
theorem start (index : SolutionIndex) (info : ClassInfo) :
    Visiting (info.id :: index.allClasses.map (·.id)) (index.classCount + 1) [info] [] where
  distinct := .nil
  within := List.nil_subset _
  leads other among := by
    rw [List.mem_singleton.mp among]
    exact List.mem_cons_self
  enough := by simp [index.length_allClasses]

theorem unseen {info : ClassInfo} {rest : List ClassInfo}
    (left : pending.dropWhile (fun info => seen.contains info.id) = info :: rest) :
    info.id ∉ seen := by
  have stopped := List.head?_dropWhile_not (fun info : ClassInfo => seen.contains info.id) pending
  rw [left] at stopped
  simpa using stopped

/-- The class that is visited next is a further one among the given classes. -/
theorem distinct_next (visiting : Visiting ids visits pending seen) {info : ClassInfo}
    {rest : List ClassInfo}
    (left : pending.dropWhile (fun info => seen.contains info.id) = info :: rest) :
    (info.id :: seen).Nodup ∧ info.id :: seen ⊆ ids := by
  have among : info ∈ pending := by
    apply List.dropWhile_subset (fun info => seen.contains info.id)
    rw [left]
    exact List.mem_cons_self
  exact ⟨List.nodup_cons.mpr ⟨unseen left, visiting.distinct⟩,
    List.cons_subset.mpr ⟨visiting.leads info among, visiting.within⟩⟩

/-- When the visits are used up, every class was seen. -/
theorem exhausted (visiting : Visiting ids 0 pending seen) :
    pending.dropWhile (fun info => seen.contains info.id) = [] := by
  cases left : pending.dropWhile (fun info => seen.contains info.id) with
  | nil => rfl
  | cons info rest =>
      obtain ⟨distinct, within⟩ := visiting.distinct_next left
      have fits : seen.length + 1 ≤ ids.length := (List.subperm_of_subset distinct within).length_le
      have enough := visiting.enough
      omega

/-- A visit leads to classes of the index. -/
theorem visit (visiting : Visiting ids (visits + 1) pending seen)
    (listed : ∀ found ∈ index.allClasses, found.id ∈ ids) {info : ClassInfo}
    {rest : List ClassInfo}
    (left : pending.dropWhile (fun info => seen.contains info.id) = info :: rest) :
    Visiting ids visits ((basesOf index info).value ++ rest) (info.id :: seen) where
  distinct := (visiting.distinct_next left).1
  within := (visiting.distinct_next left).2
  leads other among := by
    rcases List.mem_append.mp among with base | outside
    · exact listed other ((handedOn_listed index).of_basesOf info other base)
    · apply visiting.leads
      apply List.dropWhile_subset (fun info => seen.contains info.id)
      rw [left]
      exact List.mem_cons_of_mem _ outside
  enough := by
    have enough := visiting.enough
    rw [List.length_cons]
    omega

end Visiting

/-- The search for base classes ends within its visits, by one visit after the other. -/
theorem guardedAncestorsFrom_eq {index : SolutionIndex} {ids : List ClassId}
    (listed : ∀ found ∈ index.allClasses, found.id ∈ ids) {visits : Nat}
    {pending : List ClassInfo} {seen : List ClassId}
    (visiting : Visiting ids visits pending seen) :
    guardedAncestorsFrom index visits pending seen =
      .ok (ancestorsFrom index visits pending seen).value := by
  induction visits generalizing pending seen with
  | zero =>
      rw [guardedAncestorsFrom, visiting.exhausted]
      rfl
  | succ visits ih =>
      rw [guardedAncestorsFrom, ancestorsFrom]
      cases left : pending.dropWhile (fun info => seen.contains info.id) with
      | nil => rfl
      | cons info rest =>
          have later := ih (visiting.visit listed left)
          simp only [guardedBasesOf_eq, later, ok_bind, Logged.value_bind, Logged.value_pure]

/-! ## Calls -/

/-- The method that a class or its base classes define under a name. The class has to be
there. -/
def guardedMethodOf (index : SolutionIndex) (owner : Option ClassInfo) (name : String)
    (skipSelf : Bool) : Except Fault (Option MethodKey) := do
  let info ← demand .noClass owner
  let order ← guardedAncestorsFrom index (index.classCount + 1) [info] []
  let found := order.find? (fun candidate =>
    !(skipSelf && candidate.id == info.id) && candidate.methods.contains name)
  .ok (found.map (fun owner => ⟨owner.moduleName, owner.qualifiedName, name⟩))

/-- The method that a call of an entity invokes. -/
def guardedCalledEntity (index : SolutionIndex) :
    Option Entity → Except Fault (Option MethodKey)
  | some (.function moduleName name) => .ok (some ⟨moduleName, moduleName, name⟩)
  | some (.class info) => guardedMethodOf index (some info) constructorName false
  | _ => .ok none

/-- The method that a call of a member of an entity invokes. -/
def guardedCalledMember (index : SolutionIndex) (owner : Option Entity) (attr : String) :
    Except Fault (Option MethodKey) :=
  match owner with
  | some (.class info) =>
    match info.nested.find? attr with
    | some inner => guardedCalledEntity index (some (.class inner))
    | none => guardedMethodOf index (some info) attr false
  | some (.module name) => do
    let entity ← guardedMemberOf index (stepsAt 0) name attr
    guardedCalledEntity index entity
  | _ => .ok none

/-- The name of the parameter through which a method reaches its own class: the first one, if
there are any. -/
def guardedReceiver (declaration : Declaration) : Except Fault (Option String) :=
  if declaration.owner.isNone || isStatic declaration.definition then .ok none
  else
    let positional := declaration.definition.parameters.positionalNames
    if positional.isEmpty then .ok none
    else (demand .noParameter positional.head?).map some

/-- The method that a call of an attribute invokes in a declaration. Methods are looked up in
the class of the declaration when there is one. -/
def guardedCalledAttribute (index : SolutionIndex) (home : Option ModuleInfo)
    (declaration : Declaration) (value : Expr) (attr : String) :
    Except Fault (Option MethodKey) :=
  let general : Except Fault (Option MethodKey) := do
    let owner ← guardedExpression index (stepsAt 0) home value
    guardedCalledMember index owner attr
  if declaration.owner.isSome then
    if isSuperCall value then guardedMethodOf index declaration.owner attr true
    else do
      let receiver ← guardedReceiver declaration
      if isNameOf receiver value then guardedMethodOf index declaration.owner attr false
      else general
  else general

/-- The method that a call in a declaration of the given module invokes. -/
def guardedTarget (index : SolutionIndex) (home : Option ModuleInfo)
    (declaration : Declaration) (call : Call) : Except Fault (Option MethodKey) :=
  match call.function with
  | .attribute value attr => guardedCalledAttribute index home declaration value attr
  | .name id => do
    let entity ← guardedExpression index (stepsAt 0) home (.name id)
    guardedCalledEntity index entity
  | _ => .ok none

theorem guardedMethodOf_eq (index : SolutionIndex) (info : ClassInfo) (name : String)
    (skipSelf : Bool) :
    guardedMethodOf index (some info) name skipSelf =
      .ok (methodOf index info name skipSelf).value := by
  have listed : ∀ found ∈ index.allClasses,
      found.id ∈ info.id :: index.allClasses.map (·.id) := by
    intro found among
    exact List.mem_cons_of_mem _ (List.mem_map_of_mem among)
  have order := guardedAncestorsFrom_eq listed (Visiting.start index info)
  simp only [guardedMethodOf, demand_some, ok_bind, order, methodOf, definingClass?, ancestors,
    Logged.value_bind, Logged.value_pure]

theorem guardedCalledEntity_eq (index : SolutionIndex) (denoted : Option Entity) :
    guardedCalledEntity index denoted = .ok (calledEntity index denoted).value := by
  cases denoted with
  | none => rfl
  | some entity =>
      cases entity with
      | module name => rfl
      | function moduleName name => rfl
      | «class» info => exact guardedMethodOf_eq index info constructorName false

theorem guardedCalledMember_eq (index : SolutionIndex) (owner : Option Entity) (attr : String) :
    guardedCalledMember index owner attr = .ok (calledMember index owner attr).value := by
  unfold guardedCalledMember calledMember
  cases owner with
  | none => rfl
  | some entity =>
      cases entity with
      | module name =>
          simp only [guardedMemberOf_eq, guardedCalledEntity_eq, ok_bind, Logged.value_bind]
      | function moduleName name => rfl
      | «class» info =>
          cases bound : info.nested.find? attr with
          | none =>
              simp only [bound]
              exact guardedMethodOf_eq index info attr false
          | some inner =>
              simp only [bound]
              exact guardedCalledEntity_eq index (some (.class inner))

theorem guardedReceiver_eq (declaration : Declaration) :
    guardedReceiver declaration = .ok (receiver? declaration) := by
  unfold guardedReceiver receiver?
  split
  · rfl
  · cases declaration.definition.parameters.positionalNames with
    | nil => rfl
    | cons first others => rfl

theorem guardedCalledAttribute_eq (index : SolutionIndex) (info : ModuleInfo)
    (declaration : Declaration) (value : Expr) (attr : String) :
    guardedCalledAttribute index (some info) declaration value attr =
      .ok (calledAttribute index info declaration value attr).value := by
  have general : (guardedExpression index (stepsAt 0) (some info) value >>=
      (guardedCalledMember index · attr)) =
      .ok (expression index (stepsAt 0) info value >>= (calledMember index · attr)).value := by
    rw [guardedExpression_eq, ok_bind, guardedCalledMember_eq, Logged.value_bind]
  unfold guardedCalledAttribute calledAttribute
  cases own : declaration.owner with
  | none => exact general
  | some owner =>
      simp only [Option.isSome_some, if_true]
      by_cases parent : isSuperCall value
      · simp only [parent, if_true]
        exact guardedMethodOf_eq index owner attr true
      · simp only [parent, guardedReceiver_eq, ok_bind]
        by_cases self : isNameOf (receiver? declaration) value
        · simp only [self, if_true]
          exact guardedMethodOf_eq index owner attr false
        · simp only [self]
          exact general

/-- **Resolution meets no fault**, in any index: no module and no class is missing where it is
used, no first parameter is asked for in vain, and the search for base classes ends within its
visits. -/
theorem guardedTarget_eq (index : SolutionIndex) (info : ModuleInfo) (declaration : Declaration)
    (call : Call) :
    guardedTarget index (some info) declaration call =
      .ok (target index info declaration call).value := by
  unfold guardedTarget target
  cases call.function with
  | «attribute» value attr => exact guardedCalledAttribute_eq index info declaration value attr
  | name id =>
      simp only [guardedExpression_eq, guardedCalledEntity_eq, ok_bind, Logged.value_bind]
  | _ => rfl

-- A lookup is a fault where there is no module to look into.
example (index : SolutionIndex) (id : String) :
    guardedExpression index 1 none (.name id) = .error .noModule := rfl

end Resolve

end CyclicCalls
