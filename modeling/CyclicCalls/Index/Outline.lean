import CyclicCalls.Source.Tree
/-!
# Outlines

The outline of a scope is what its statements declare: functions, classes with
outlines of their own, and imports. The bodies of `if`, `try`, `with`, `for`,
`while` and `match` statements belong to the scope around them. Functions are not
looked into.

The parts of a `try` statement are taken in the order body, `else`, `finally`,
handlers.
-/

set_option autoImplicit false

namespace CyclicCalls.Index

open Source

/-- What a statement of a scope declares. -/
inductive Outline where
  | function (definition : FunctionDef Stmt)
  | classDef (definition : ClassDef Stmt) (members : List Outline)
  | importModules (names : List Alias)
  | importFrom (moduleName : Option String) (names : List Alias) (level : Nat)

namespace Outline

mutual

/-- What a statement declares in the scope it belongs to. -/
def ofStmt : Stmt → List Outline
  | .function definition => [.function definition]
  | .classDef ⟨line, name, bases, keywords, body, decorators⟩ =>
    [.classDef ⟨line, name, bases, keywords, body, decorators⟩ (ofBody body)]
  | .importModules names => [.importModules names]
  | .importFrom moduleName names level => [.importFrom moduleName names level]
  | .ifElse _ body orelse => ofBody body ++ ofBody orelse
  | .whileLoop _ body orelse => ofBody body ++ ofBody orelse
  | .forLoop _ _ body orelse => ofBody body ++ ofBody orelse
  | .withItems _ body => ofBody body
  | .tryBlock body handlers orelse finalBody =>
    ofBody body ++ ofBody orelse ++ ofBody finalBody ++ ofHandlers handlers
  | .matchOn _ cases => ofCases cases
  | .simple _ => []

/-- What the statements of a body declare, in order. -/
def ofBody : List Stmt → List Outline
  | [] => []
  | statement :: rest => ofStmt statement ++ ofBody rest

/-- What the handlers of a `try` declare, in order. -/
def ofHandlers : List (Handler Stmt) → List Outline
  | [] => []
  | ⟨_, body⟩ :: rest => ofBody body ++ ofHandlers rest

/-- What the cases of a `match` declare, in order. -/
def ofCases : List (MatchCase Stmt) → List Outline
  | [] => []
  | ⟨_, _, body⟩ :: rest => ofBody body ++ ofCases rest

end

end Outline

end CyclicCalls.Index
