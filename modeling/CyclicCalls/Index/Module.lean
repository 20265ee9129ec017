import CyclicCalls.Bindings
import CyclicCalls.Index.Outline
import CyclicCalls.Solution.Project
import CyclicCalls.Source.Calls
import CyclicCalls.Symbol
/-!
# What a module declares

The functions, classes and imports that a module binds at module scope, and its
method declarations in the order of its outline: functions at module level and
functions in class bodies, each with the class it stands in.

A class is known by the place of its definition: the entry of the index that
holds it, and its position in the outlines around it. Two classes of one name, or
the same class in two entries, are therefore told apart.
-/

set_option autoImplicit false

namespace CyclicCalls.Index

open Source Solution

/-- A name bound by an import: to a module, or to a member of a module. -/
structure ImportBinding where
  moduleName : String
  member : Option String := none
deriving DecidableEq, Repr

/-- The place of a class definition. -/
structure ClassId where
  entry : Nat
  position : List Nat
deriving DecidableEq, Repr

/-- A class at module scope or in the body of another class. -/
structure ClassInfo where
  id : ClassId
  moduleName : String
  /-- The names of the classes around it and its own, joined by dots. -/
  name : String
  line : Nat
  bases : List Expr
  /-- The lines of the functions in its body. -/
  methods : Bindings Nat
  /-- The classes in its body. -/
  nested : Bindings ClassInfo

/-- The module and the name of a class, joined by a dot. -/
def ClassInfo.qualifiedName (info : ClassInfo) : String :=
  info.moduleName ++ "." ++ info.name

/-- A function definition at module level or in a class body. -/
structure Declaration where
  document : Document
  definition : FunctionDef Stmt
  owner : Option ClassInfo

namespace Declaration

/-- The class or the module that holds a declaration. -/
def ownerName (declaration : Declaration) : String :=
  match declaration.owner with
  | some info => info.qualifiedName
  | none => declaration.document.moduleName

/-- The method that is declared. -/
def key (declaration : Declaration) : MethodKey :=
  ⟨declaration.document.moduleName, declaration.ownerName, declaration.definition.name⟩

/-- The calls in a declaration. -/
def calls (declaration : Declaration) : List Call :=
  (Node.stmt (.function declaration.definition)).calls

/-- Where a call of the declaration stands: the file and the line. -/
def place (declaration : Declaration) (call : Call) : String :=
  declaration.document.path.text ++ ":" ++ toString call.line

end Declaration

/-- What a module binds and declares. -/
structure ModuleInfo where
  document : Document
  functions : Bindings Nat
  classes : Bindings ClassInfo
  imports : Bindings ImportBinding
  declarations : List Declaration

/-- The dotted name of a module. -/
def ModuleInfo.name (info : ModuleInfo) : String :=
  info.document.moduleName

/-! ## Classes -/

/-- The functions among the members of a scope, with their lines. -/
def functionLines (members : List Outline) : Bindings Nat :=
  Bindings.ofList (members.filterMap (fun
    | .function definition => some (definition.name, definition.line)
    | _ => none))

/-- Where the classes of a scope are collected: the index entry, the module, the
position of the scope, and what stands before the names of its classes. -/
structure Place where
  entry : Nat
  moduleName : String
  position : List Nat := []
  path : String := ""

/-- The place of the scope of a class that is the given member of a scope. -/
def Place.inside (place : Place) (member : Nat) (name : String) : Place :=
  { place with position := place.position ++ [member], path := place.path ++ name ++ "." }

mutual

/-- The classes of a scope from the given member on, with their names. -/
def classesFrom (place : Place) (member : Nat) : List Outline → List (String × ClassInfo)
  | [] => []
  | outline :: rest => classOf place member outline ++ classesFrom place (member + 1) rest

/-- The class that a member of a scope is, if it is one. -/
def classOf (place : Place) (member : Nat) : Outline → List (String × ClassInfo)
  | .classDef definition members =>
    [(definition.name,
      { id := ⟨place.entry, place.position ++ [member]⟩
        moduleName := place.moduleName
        name := place.path ++ definition.name
        line := definition.line
        bases := definition.bases
        methods := functionLines members
        nested := Bindings.ofList (classesFrom (place.inside member definition.name) 0 members) })]
  | _ => []

end

/-! ## Declarations -/

mutual

/-- The declarations of a scope from the given member on. -/
def declarationsFrom (document : Document) (place : Place) (owner : Option ClassInfo)
    (member : Nat) : List Outline → List Declaration
  | [] => []
  | outline :: rest =>
    declarationsOf document place owner member outline ++
      declarationsFrom document place owner (member + 1) rest

/-- The declarations in a member of a scope. -/
def declarationsOf (document : Document) (place : Place) (owner : Option ClassInfo)
    (member : Nat) : Outline → List Declaration
  | .function definition => [⟨document, definition, owner⟩]
  | .classDef definition members =>
    let info := (classOf place member (.classDef definition members)).head?.map (·.2)
    declarationsFrom document (place.inside member definition.name) info 0 members
  | _ => []

end

/-! ## Imports -/

/-- The module that an import with leading dots names. One dot is the package of
the document, each further one the package around; above the outermost package
there is nothing. Without dots the name stands for itself. -/
def importedModule? (document : Document) (moduleName : Option String) (level : Int) :
    Option String :=
  if level == 0 then moduleName
  else
    let package := document.package
    let parts := if package == "" then [] else Text.split "." package
    if (parts.length : Int) < level - 1 then none
    else
      let kept := if 1 < level then parts.take (parts.length - (level - 1).toNat) else parts
      let path := kept ++ moduleName.toList.filter (· != "")
      if path.isEmpty then none else some (Text.join "." path)

/-- The names that an import of modules binds. Without a name of its own, a
dotted module binds its first part. -/
def moduleBindings (names : List Alias) : List (String × ImportBinding) :=
  names.map (fun item =>
    match item.asName with
    | some bound => (bound, { moduleName := item.name })
    | none =>
      let top := (Text.split "." item.name).headD ""
      (top, { moduleName := top }))

/-- The names that an import of members binds. A star binds none. -/
def memberBindings (moduleName : String) (names : List Alias) : List (String × ImportBinding) :=
  (names.filter (fun item => item.name != "*")).map (fun item =>
    (item.asName.getD item.name, { moduleName, member := some item.name }))

/-- The names bound by the imports of a scope; an import from outside the
outermost package binds none and is reported. -/
def importsOf (document : Document) : List Outline → Logged (List (String × ImportBinding))
  | [] => pure []
  | .importModules names :: rest => do
    let others ← importsOf document rest
    pure (moduleBindings names ++ others)
  | .importFrom moduleName names level :: rest =>
    match importedModule? document moduleName level with
    | some found => do
      let others ← importsOf document rest
      pure (memberBindings found names ++ others)
    | none => do
      Logged.say (.importOutside document.moduleName)
      importsOf document rest
  | _ :: rest => importsOf document rest

/-! ## Modules -/

/-- What a document declares, as the given entry of an index. -/
def moduleInfo (entry : Nat) (document : Document) (statements : List Stmt) :
    Logged ModuleInfo := do
  let outlines := Outline.ofBody statements
  let place : Place := { entry, moduleName := document.moduleName }
  let imports ← importsOf document outlines
  pure {
    document
    functions := functionLines outlines
    classes := Bindings.ofList (classesFrom place 0 outlines)
    imports := Bindings.ofList imports
    declarations := declarationsFrom document place none 0 outlines }

end CyclicCalls.Index
