import CyclicCalls.Source.Tree
/-!
# Nodes and their children

Everything in a tree that has parts is a node, and `Node.children` lists the
parts of a node in their fixed order. A node is larger than all its children
together (`Node.sum_size_children_lt`), so every walk along children ends.
-/

set_option autoImplicit false

namespace CyclicCalls.Source

/-- The parts of a tree. -/
inductive Node where
  | expr (expression : Expr)
  | forClause (clause : ForClause)
  | parameter (parameter : Parameter)
  | parameters (parameters : Parameters)
  | pattern (pattern : Pattern)
  | handler (handler : Handler Stmt)
  | matchCase (matchCase : MatchCase Stmt)
  | stmt (statement : Stmt)

namespace Node

/-- Expressions as nodes. -/
def exprs (expressions : List Expr) : List Node :=
  expressions.map .expr

/-- An expression that may be missing. -/
def optional (expression : Option Expr) : List Node :=
  expression.toList.map .expr

/-- Expressions some of which may be missing. -/
def optionals (expressions : List (Option Expr)) : List Node :=
  expressions.flatMap optional

/-- Statements as nodes. -/
def stmts (statements : List Stmt) : List Node :=
  statements.map .stmt

/-- The children of an expression. -/
def ofExpr : Expr → List Node
  | .name _ => []
  | .literal => []
  | .interpolated fields => exprs fields
  | .attribute value _ => [.expr value]
  | .subscript value index => [.expr value, .expr index]
  | .slice lower upper step => optional lower ++ optional upper ++ optional step
  | .call _ function arguments keywords => .expr function :: exprs arguments ++ exprs keywords
  | .lambda given body => [.parameters given, .expr body]
  | .conditional test body orelse => [.expr test, .expr body, .expr orelse]
  | .junction operands => exprs operands
  | .binary left right => [.expr left, .expr right]
  | .unary operand => [.expr operand]
  | .comparison left others => .expr left :: exprs others
  | .named target value => [.expr target, .expr value]
  | .starred value => [.expr value]
  | .await value => [.expr value]
  | .yield value => optional value
  | .yieldFrom value => [.expr value]
  | .tuple elements => exprs elements
  | .list elements => exprs elements
  | .set elements => exprs elements
  | .dict keys values => optionals keys ++ exprs values
  | .comprehension elements clauses => exprs elements ++ clauses.map .forClause

/-- The children of a list of parameters. -/
def ofParameters : Parameters → List Node
  | .mk positionalOnly positional rest keywordOnly keywordDefaults keywordRest defaults =>
    positionalOnly.map .parameter ++ positional.map .parameter ++ rest.toList.map .parameter ++
      keywordOnly.map .parameter ++ optionals keywordDefaults ++
      keywordRest.toList.map .parameter ++ exprs defaults

/-- The children of a pattern. -/
def ofPattern : Pattern → List Node
  | .value expression => [.expr expression]
  | .binding => []
  | .sequence parts => parts.map .pattern
  | .mapping keys parts => exprs keys ++ parts.map .pattern
  | .instanceOf type parts keywordParts =>
    .expr type :: parts.map .pattern ++ keywordParts.map .pattern
  | .oneOf alternatives => alternatives.map .pattern
  | .bound inner => [.pattern inner]

/-- The children of a statement. -/
def ofStmt : Stmt → List Node
  | .function definition =>
    .parameters definition.parameters :: stmts definition.body ++ exprs definition.decorators ++
      optional definition.returns
  | .classDef definition =>
    exprs definition.bases ++ exprs definition.keywords ++ stmts definition.body ++
      exprs definition.decorators
  | .importModules _ => []
  | .importFrom _ _ _ => []
  | .ifElse test body orelse => .expr test :: stmts body ++ stmts orelse
  | .whileLoop test body orelse => .expr test :: stmts body ++ stmts orelse
  | .forLoop target iterated body orelse =>
    .expr target :: .expr iterated :: stmts body ++ stmts orelse
  | .withItems items body =>
    items.flatMap (fun item => .expr item.1 :: optional item.2) ++ stmts body
  | .tryBlock body handlers orelse finalBody =>
    stmts body ++ handlers.map .handler ++ stmts orelse ++ stmts finalBody
  | .matchOn subject cases => .expr subject :: cases.map .matchCase
  | .simple parts => exprs parts

/-- The children of a node, in their fixed order. -/
def children : Node → List Node
  | .expr expression => ofExpr expression
  | .forClause (.mk target iterated conditions) =>
    .expr target :: .expr iterated :: exprs conditions
  | .parameter (.mk _ hint) => optional hint
  | .parameters given => ofParameters given
  | .pattern shape => ofPattern shape
  | .handler clause => optional clause.type ++ stmts clause.body
  | .matchCase clause => .pattern clause.pattern :: optional clause.guard ++ stmts clause.body
  | .stmt statement => ofStmt statement

/-! ## Sizes -/

/-- A size for walks to go down by. -/
noncomputable def size : Node → Nat
  | .expr expression => sizeOf expression
  | .forClause clause => sizeOf clause
  | .parameter given => sizeOf given
  | .parameters given => sizeOf given
  | .pattern shape => sizeOf shape
  | .handler clause => sizeOf clause
  | .matchCase clause => sizeOf clause
  | .stmt statement => sizeOf statement

/-- The sizes of several nodes together. -/
noncomputable def totalSize (nodes : List Node) : Nat :=
  nodes.foldr (fun node total => node.size + total) 0

@[simp] theorem totalSize_nil : totalSize [] = 0 := rfl

@[simp] theorem totalSize_cons (node : Node) (nodes : List Node) :
    totalSize (node :: nodes) = node.size + totalSize nodes := rfl

@[simp] theorem totalSize_append (first second : List Node) :
    totalSize (first ++ second) = totalSize first + totalSize second := by
  induction first with
  | nil => simp
  | cons node nodes ih => simp [ih, Nat.add_assoc]

/-- Members of a list are together smaller than the list. -/
theorem totalSize_map_lt {α : Type} [SizeOf α] (wrap : α → Node)
    (same : ∀ a, (wrap a).size = sizeOf a) (items : List α) :
    totalSize (items.map wrap) < sizeOf items := by
  induction items with
  | nil => simp
  | cons item items ih => simp [same]; omega

theorem totalSize_exprs_lt (expressions : List Expr) :
    totalSize (exprs expressions) < sizeOf expressions :=
  totalSize_map_lt .expr (fun _ => rfl) expressions

theorem totalSize_stmts_lt (statements : List Stmt) :
    totalSize (stmts statements) < sizeOf statements :=
  totalSize_map_lt .stmt (fun _ => rfl) statements

theorem totalSize_optional_lt (expression : Option Expr) :
    totalSize (optional expression) < sizeOf expression := by
  cases expression <;> simp [optional, size]

theorem totalSize_optionals_lt (expressions : List (Option Expr)) :
    totalSize (optionals expressions) < sizeOf expressions := by
  induction expressions with
  | nil => simp [optionals]
  | cons expression expressions ih =>
    have first := totalSize_optional_lt expression
    simp only [optionals, List.flatMap_cons, totalSize_append, List.cons.sizeOf_spec] at ih ⊢
    omega

theorem totalSize_parameters_lt (given : List Parameter) :
    totalSize (given.map .parameter) < sizeOf given :=
  totalSize_map_lt .parameter (fun _ => rfl) given

theorem totalSize_parameter_lt (given : Option Parameter) :
    totalSize (given.toList.map .parameter) < sizeOf given := by
  cases given <;> simp [size]

theorem totalSize_forClauses_lt (clauses : List ForClause) :
    totalSize (clauses.map .forClause) < sizeOf clauses :=
  totalSize_map_lt .forClause (fun _ => rfl) clauses

theorem totalSize_patterns_lt (shapes : List Pattern) :
    totalSize (shapes.map .pattern) < sizeOf shapes :=
  totalSize_map_lt .pattern (fun _ => rfl) shapes

theorem totalSize_handlers_lt (handlers : List (Handler Stmt)) :
    totalSize (handlers.map .handler) < sizeOf handlers :=
  totalSize_map_lt .handler (fun _ => rfl) handlers

theorem totalSize_matchCases_lt (cases : List (MatchCase Stmt)) :
    totalSize (cases.map .matchCase) < sizeOf cases :=
  totalSize_map_lt .matchCase (fun _ => rfl) cases

theorem totalSize_items_lt (items : List (Expr × Option Expr)) :
    totalSize (items.flatMap (fun item => .expr item.1 :: optional item.2)) < sizeOf items := by
  induction items with
  | nil => simp
  | cons item items ih =>
    obtain ⟨context, target⟩ := item
    have first := totalSize_optional_lt target
    simp only [List.flatMap_cons, totalSize_append, totalSize_cons, size, List.cons.sizeOf_spec,
      Prod.mk.sizeOf_spec] at ih ⊢
    omega

theorem totalSize_function_lt (definition : FunctionDef Stmt) :
    totalSize (ofStmt (.function definition)) < sizeOf definition := by
  obtain ⟨line, name, given, body, decorators, returns⟩ := definition
  have := totalSize_stmts_lt body
  have := totalSize_exprs_lt decorators
  have := totalSize_optional_lt returns
  simp only [ofStmt, size, totalSize_cons, totalSize_append, List.cons_append,
    FunctionDef.mk.sizeOf_spec]
  omega

theorem totalSize_classDef_lt (definition : ClassDef Stmt) :
    totalSize (ofStmt (.classDef definition)) < sizeOf definition := by
  obtain ⟨line, name, bases, keywords, body, decorators⟩ := definition
  have := totalSize_exprs_lt bases
  have := totalSize_exprs_lt keywords
  have := totalSize_stmts_lt body
  have := totalSize_exprs_lt decorators
  simp only [ofStmt, totalSize_append, ClassDef.mk.sizeOf_spec]
  omega

/-- The children of a node are together smaller than the node. -/
theorem sum_size_children_lt (node : Node) : totalSize node.children < node.size := by
  cases node with
  | expr expression =>
    cases expression <;>
      simp only [children, ofExpr, size, totalSize_cons, totalSize_append, totalSize_nil] <;>
      grind [totalSize_exprs_lt, totalSize_optional_lt, totalSize_optionals_lt,
        totalSize_forClauses_lt]
  | forClause clause =>
    obtain ⟨target, iterated, conditions⟩ := clause
    have := totalSize_exprs_lt conditions
    simp only [children, size, totalSize_cons, ForClause.mk.sizeOf_spec]
    omega
  | parameter given =>
    obtain ⟨name, hint⟩ := given
    have := totalSize_optional_lt hint
    simp only [children, size, Parameter.mk.sizeOf_spec]
    omega
  | parameters given =>
    obtain ⟨positionalOnly, positional, rest, keywordOnly, keywordDefaults, keywordRest, defaults⟩ :=
      given
    have := totalSize_parameters_lt positionalOnly
    have := totalSize_parameters_lt positional
    have := totalSize_parameter_lt rest
    have := totalSize_parameters_lt keywordOnly
    have := totalSize_optionals_lt keywordDefaults
    have := totalSize_parameter_lt keywordRest
    have := totalSize_exprs_lt defaults
    simp only [children, ofParameters, size, totalSize_append, Parameters.mk.sizeOf_spec]
    omega
  | pattern shape =>
    cases shape <;>
      simp only [children, ofPattern, size, totalSize_cons, totalSize_append, totalSize_nil] <;>
      grind [totalSize_exprs_lt, totalSize_patterns_lt]
  | handler clause =>
    obtain ⟨type, body⟩ := clause
    have := totalSize_optional_lt type
    have := totalSize_stmts_lt body
    simp only [children, size, totalSize_append, Handler.mk.sizeOf_spec]
    omega
  | matchCase clause =>
    obtain ⟨shape, guard, body⟩ := clause
    have := totalSize_optional_lt guard
    have := totalSize_stmts_lt body
    simp only [children, size, totalSize_cons, totalSize_append, List.cons_append,
      MatchCase.mk.sizeOf_spec]
    omega
  | stmt statement =>
    cases statement with
    | function definition =>
      have := totalSize_function_lt definition
      simp only [children, size, Stmt.function.sizeOf_spec]
      omega
    | classDef definition =>
      have := totalSize_classDef_lt definition
      simp only [children, size, Stmt.classDef.sizeOf_spec]
      omega
    | _ =>
      simp only [children, ofStmt, size, totalSize_cons, totalSize_append, totalSize_nil]
      grind [totalSize_exprs_lt, totalSize_stmts_lt, totalSize_items_lt, totalSize_handlers_lt,
        totalSize_matchCases_lt]

end Node

end CyclicCalls.Source
