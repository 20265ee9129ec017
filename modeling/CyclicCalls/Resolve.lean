import CyclicCalls.Index.Solution
/-!
# Resolving calls

Which declared method a call invokes, as far as the text alone tells. A name is
looked up at module scope, imports are followed from module to module, and an
attribute is a member of the module or a class inside the class that its value
denotes. A call of a class invokes its constructor. A call through the first
parameter of a method, or through `super()`, is looked up in the class of the
method and its base classes.

Imports are followed for a bounded number of steps (`maxImportDepth`). When a
member is not found in a module, the submodule of that name stands in for it.

The base classes of a class are searched depth first, from left to right
(`ancestors`). Every class is visited once, so the number of classes of the index
bounds the search.
-/

set_option autoImplicit false

namespace CyclicCalls.Resolve

open Source Index

/-- What a name can denote. -/
inductive Entity where
  | module (name : String)
  | function (moduleName name : String)
  | class (info : ClassInfo)

/-- How many imports are followed one after the other. -/
def maxImportDepth : Nat := 16

/-- The number of steps left at a given depth. The depth may be negative. -/
def stepsAt (depth : Int) : Nat :=
  (maxImportDepth + 1 - depth).toNat

/-! ## Names and expressions -/

/-- What a name denotes at the scope of a module; `follow` follows the import of
a member. Classes come before functions, and functions before imports. -/
def nameIn (follow : String → String → Logged (Option Entity)) (info : ModuleInfo)
    (name : String) : Logged (Option Entity) :=
  match info.classes.find? name with
  | some found => pure (some (.class found))
  | none =>
    if info.functions.contains name then pure (some (.function info.name name))
    else
      match info.imports.find? name with
      | none => pure none
      | some ⟨moduleName, none⟩ => pure (some (.module moduleName))
      | some ⟨moduleName, some member⟩ => follow moduleName member

/-- What a member of a module denotes, with the given number of steps left. -/
def memberOf (index : SolutionIndex) : Nat → String → String → Logged (Option Entity)
  | 0, moduleName, member => do
    Logged.say (.importChainTooDeep moduleName member)
    pure none
  | steps + 1, moduleName, member => do
    let found ← match index.module? moduleName with
      | some info => nameIn (memberOf index steps) info member
      | none => pure none
    match found with
    | some entity => pure (some entity)
    | none =>
      let submodule := moduleName ++ "." ++ member
      pure (if index.isModule submodule then some (.module submodule) else none)

/-- What a name or a chain of attributes denotes at the scope of a module. -/
def expression (index : SolutionIndex) (steps : Nat) (info : ModuleInfo) :
    Expr → Logged (Option Entity)
  | .name id => nameIn (memberOf index (steps - 1)) info id
  | .attribute value attr => do
    match ← expression index steps info value with
    | some (.module moduleName) => memberOf index steps moduleName attr
    | some (.class found) => pure ((found.nested.find? attr).map .class)
    | _ => pure none
  | _ => pure none

/-! ## Base classes -/

/-- The classes among some entities. -/
def classes (entities : List (Option Entity)) : List ClassInfo :=
  entities.filterMap (fun
    | some (.class info) => some info
    | _ => none)

/-- The base classes of a class that are declared in the solution, from left to
right. -/
def basesOf (index : SolutionIndex) (info : ClassInfo) : Logged (List ClassInfo) :=
  match index.module? info.moduleName with
  | none => pure []
  | some home => do
    let entities ← info.bases.mapM (expression index (stepsAt 0) home)
    pure (classes entities)

/-- The classes to be visited and those they lead to, without those already seen,
in the order of the first visit. -/
def ancestorsFrom (index : SolutionIndex) :
    Nat → List ClassInfo → List ClassId → Logged (List ClassInfo)
  | 0, _, _ => pure []
  | visits + 1, pending, seen =>
    match pending.dropWhile (fun info => seen.contains info.id) with
    | [] => pure []
    | info :: rest => do
      let bases ← basesOf index info
      let others ← ancestorsFrom index visits (bases ++ rest) (info.id :: seen)
      pure (info :: others)

/-- A class followed by its base classes, theirs before the next. -/
def ancestors (index : SolutionIndex) (info : ClassInfo) : Logged (List ClassInfo) :=
  ancestorsFrom index (index.classCount + 1) [info] []

/-- The first class in the order of `ancestors` that defines a method, the class
itself left out on request. -/
def definingClass? (index : SolutionIndex) (info : ClassInfo) (name : String)
    (skipSelf : Bool) : Logged (Option ClassInfo) := do
  let order ← ancestors index info
  pure (order.find? (fun candidate =>
    !(skipSelf && candidate.id == info.id) && candidate.methods.contains name))

/-! ## Calls -/

/-- The method that a class or its base classes define under a name. -/
def methodOf (index : SolutionIndex) (info : ClassInfo) (name : String) (skipSelf : Bool) :
    Logged (Option MethodKey) := do
  let found ← definingClass? index info name skipSelf
  pure (found.map (fun owner => ⟨owner.moduleName, owner.qualifiedName, name⟩))

/-- The name of the method that makes instances. -/
def constructorName : String := "__init__"

/-- The method that a call of an entity invokes. -/
def calledEntity (index : SolutionIndex) : Option Entity → Logged (Option MethodKey)
  | some (.function moduleName name) => pure (some ⟨moduleName, moduleName, name⟩)
  | some (.class info) => methodOf index info constructorName false
  | _ => pure none

/-- The method that a call of a member of an entity invokes. -/
def calledMember (index : SolutionIndex) (owner : Option Entity) (attr : String) :
    Logged (Option MethodKey) :=
  match owner with
  | some (.class info) =>
    match info.nested.find? attr with
    | some inner => calledEntity index (some (.class inner))
    | none => methodOf index info attr false
  | some (.module name) => do
    let entity ← memberOf index (stepsAt 0) name attr
    calledEntity index entity
  | _ => pure none

/-- Whether a function has the decorator that takes the first parameter's role
away. -/
def isStatic (definition : FunctionDef Stmt) : Bool :=
  definition.decorators.any (fun
    | .name id => id == "staticmethod"
    | _ => false)

/-- The name of the parameter through which a method reaches its own class. -/
def receiver? (declaration : Declaration) : Option String :=
  if declaration.owner.isNone || isStatic declaration.definition then none
  else declaration.definition.parameters.positionalNames.head?

/-- Whether an expression is a call of `super`. -/
def isSuperCall : Expr → Bool
  | .call _ (.name id) _ _ => id == "super"
  | _ => false

/-- Whether an expression is the given name. -/
def isNameOf (name : Option String) : Expr → Bool
  | .name id => some id == name
  | _ => false

/-- The method that a call of an attribute invokes in a declaration. -/
def calledAttribute (index : SolutionIndex) (info : ModuleInfo) (declaration : Declaration)
    (value : Expr) (attr : String) : Logged (Option MethodKey) :=
  let general : Logged (Option MethodKey) := do
    let owner ← expression index (stepsAt 0) info value
    calledMember index owner attr
  match declaration.owner with
  | some owner =>
    if isSuperCall value then methodOf index owner attr true
    else if isNameOf (receiver? declaration) value then methodOf index owner attr false
    else general
  | none => general

/-- The method that a call in a declaration of the given module invokes. -/
def target (index : SolutionIndex) (info : ModuleInfo) (declaration : Declaration)
    (call : Call) : Logged (Option MethodKey) :=
  match call.function with
  | .attribute value attr => calledAttribute index info declaration value attr
  | .name id => do
    let entity ← expression index (stepsAt 0) info (.name id)
    calledEntity index entity
  | _ => pure none

end CyclicCalls.Resolve
