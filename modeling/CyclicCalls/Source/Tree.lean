/-!
# Syntax trees

The trees that source text is read into. They keep what an analysis of calls can
see: names, attributes, calls with the line they start on, definitions with
theirs, imports, and the place of every expression and statement. Which operator
joins two operands, or which number a literal denotes, makes no difference to it
and is left out.

Parts of a node stand in the order in which a reader of the language enumerates
them, which is not always the order of the text: the decorators of a function
come after its body, and all keys of a dictionary before all its values.
-/

set_option autoImplicit false

namespace CyclicCalls.Source

mutual

/-- Expressions. -/
inductive Expr where
  | name (id : String)
  /-- A number, a text without fields, or one of the constant words. -/
  | literal
  /-- A text with replacement fields: their expressions, those of a format after
  the expression that is formatted. -/
  | interpolated (fields : List Expr)
  | attribute (value : Expr) (attr : String)
  | subscript (value index : Expr)
  | slice (lower upper step : Option Expr)
  /-- A call with the line on which it starts, the arguments by position and the
  values of the arguments by name. -/
  | call (line : Nat) (function : Expr) (arguments keywords : List Expr)
  | lambda (parameters : Parameters) (body : Expr)
  | conditional (test body orelse : Expr)
  /-- Operands joined by `and` or by `or`. -/
  | junction (operands : List Expr)
  | binary (left right : Expr)
  | unary (operand : Expr)
  | comparison (left : Expr) (others : List Expr)
  /-- An assignment inside an expression. -/
  | named (target value : Expr)
  | starred (value : Expr)
  | await (value : Expr)
  | yield (value : Option Expr)
  | yieldFrom (value : Expr)
  | tuple (elements : List Expr)
  | list (elements : List Expr)
  | set (elements : List Expr)
  /-- A dictionary; a mapping that is unpacked into it has no key. -/
  | dict (keys : List (Option Expr)) (values : List Expr)
  /-- A comprehension; one for a dictionary has a key and a value. -/
  | comprehension (elements : List Expr) (clauses : List ForClause)

/-- A `for` clause of a comprehension with its conditions. -/
inductive ForClause where
  | mk (target iterated : Expr) (conditions : List Expr)

/-- A parameter with its type hint. -/
inductive Parameter where
  | mk (name : String) (hint : Option Expr)

/-- The parameters of a function. A keyword-only parameter without a default has
none in its place; the other defaults belong to the last parameters. -/
inductive Parameters where
  | mk (positionalOnly positional : List Parameter) (rest : Option Parameter)
      (keywordOnly : List Parameter) (keywordDefaults : List (Option Expr))
      (keywordRest : Option Parameter) (defaults : List Expr)

end

/-- The patterns of a `match` statement. -/
inductive Pattern where
  | value (expression : Expr)
  /-- A name that is bound, alone, with a star, or as the wildcard. -/
  | binding
  | sequence (parts : List Pattern)
  | mapping (keys : List Expr) (parts : List Pattern)
  | instanceOf (type : Expr) (parts keywordParts : List Pattern)
  | oneOf (alternatives : List Pattern)
  | bound (pattern : Pattern)

/-- An imported name and the name it is bound to, if that is another one. -/
structure Alias where
  name : String
  asName : Option String := none
deriving DecidableEq, Repr

/-- A function definition over statements of type `σ`, with the line on which it
starts. -/
structure FunctionDef (σ : Type) where
  line : Nat
  name : String
  parameters : Parameters
  body : List σ
  decorators : List Expr
  returns : Option Expr

/-- A class definition over statements of type `σ`, with the line on which it
starts. -/
structure ClassDef (σ : Type) where
  line : Nat
  name : String
  bases : List Expr
  keywords : List Expr
  body : List σ
  decorators : List Expr

/-- A clause of a compound statement: a handler of a `try`, or a case of a
`match`. -/
structure Handler (σ : Type) where
  type : Option Expr
  body : List σ

/-- A case of a `match` statement. -/
structure MatchCase (σ : Type) where
  pattern : Pattern
  guard : Option Expr
  body : List σ

/-- Statements. -/
inductive Stmt where
  | function (definition : FunctionDef Stmt)
  | classDef (definition : ClassDef Stmt)
  | importModules (names : List Alias)
  | importFrom (moduleName : Option String) (names : List Alias) (level : Nat)
  | ifElse (test : Expr) (body orelse : List Stmt)
  | whileLoop (test : Expr) (body orelse : List Stmt)
  | forLoop (target iterated : Expr) (body orelse : List Stmt)
  | withItems (items : List (Expr × Option Expr)) (body : List Stmt)
  | tryBlock (body : List Stmt) (handlers : List (Handler Stmt)) (orelse finalBody : List Stmt)
  | matchOn (subject : Expr) (cases : List (MatchCase Stmt))
  /-- Any statement that is not compound and imports nothing, with its
  expressions. -/
  | simple (parts : List Expr)

namespace Parameters

/-- The names of the parameters that can be given by position, in order. -/
def positionalNames : Parameters → List String
  | .mk positionalOnly positional _ _ _ _ _ =>
    (positionalOnly ++ positional).map (fun | .mk name _ => name)

/-- No parameters. -/
def none : Parameters :=
  .mk [] [] Option.none [] [] Option.none []

end Parameters

end CyclicCalls.Source
