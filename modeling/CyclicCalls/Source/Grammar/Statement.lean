import CyclicCalls.Source.Grammar.Pattern
/-!
# Statements

The rules for statements and whole texts. The body of a compound statement is a
list of statements one level deeper, supplied down to a given depth
(`statementsAt`). A function or a class starts on the line of its first keyword,
whatever decorators stand before it.
-/

set_option autoImplicit false

namespace CyclicCalls.Source.Grammar

open Rule

/-! ## Simple statements -/

/-- The value of an assignment. -/
def assigned (deeper : Deeper) : Rule Expr :=
  yieldExpression deeper <|> starExpressions deeper

/-- The operators that assign in place. -/
def inPlaceOperators : List String :=
  ["+=", "-=", "*=", "@=", "/=", "%=", "&=", "|=", "^=", "<<=", ">>=", "**=", "//="]

/-- Further values of a chain of assignments. All but the last are targets. -/
def assignmentChain (deeper : Deeper) (first : Expr) : Rule Stmt := do
  let others ← many1 (do mark "="; assigned deeper)
  check ((first :: others).dropLast.all isStarTarget)
  pure (.simple (first :: others))

/-- An assignment with a type hint. -/
def hintedAssignment (deeper : Deeper) (target : Expr) : Rule Stmt := do
  mark ":"
  check (isSingleTarget target)
  let hint ← deeper .expression
  let value ← maybe (do mark "="; assigned deeper)
  pure (.simple (target :: hint :: value.toList))

/-- An assignment in place. -/
def inPlaceAssignment (deeper : Deeper) (target : Expr) : Rule Stmt := do
  oneOfMarks inPlaceOperators
  check (isSingleTarget target)
  pure (.simple [target, ← assigned deeper])

/-- A statement that starts with an expression. -/
def expressionStatement (deeper : Deeper) : Rule Stmt := do
  let first ← assigned deeper
  hintedAssignment deeper first <|> inPlaceAssignment deeper first <|>
    assignmentChain deeper first <|> pure (.simple [first])

/-- Names separated by dots. -/
def dottedName : Rule String := do
  let first ← name
  let others ← many (do mark "."; name)
  pure (others.foldl (fun path part => path ++ "." ++ part) first)

/-- The name that an import is bound to, if it is given. -/
def asName : Rule (Option String) :=
  maybe (do keyword "as"; name)

/-- The modules of an import. -/
def importModules : Rule Stmt := do
  keyword "import"
  let names ← separated (do
    let path ← dottedName
    pure { name := path, asName := ← asName : Alias })
  pure (.importModules names)

/-- The dots before a module name, counted. -/
def leadingDots : Rule Nat := do
  let dots ← many ((do mark "."; pure 1) <|> (do mark "..."; pure 3))
  pure (dots.foldr (· + ·) 0)

/-- An imported member. -/
def importedMember : Rule Alias := do
  let member ← name
  pure { name := member, asName := ← asName }

/-- The members of an import. -/
def importedMembers : Rule (List Alias) :=
  (do mark "*"; pure [{ name := "*" }]) <|>
  (do
    mark "("
    let (members, _) ← series importedMember
    mark ")"
    pure members) <|>
  separated importedMember

/-- An import of members. -/
def importFrom : Rule Stmt := do
  keyword "from"
  let level ← leadingDots
  let path ← maybe dottedName
  check (0 < level || path.isSome)
  keyword "import"
  pure (.importFrom path (← importedMembers) level)

/-- A statement of one keyword and perhaps some expressions. -/
def keywordStatement (deeper : Deeper) : Rule Stmt :=
  (do keyword "pass" <|> keyword "break" <|> keyword "continue"; pure (.simple [])) <|>
  (do
    keyword "return"
    pure (.simple (← maybe (starExpressions deeper)).toList)) <|>
  (do
    keyword "raise"
    match ← maybe (deeper .expression) with
    | none => pure (.simple [])
    | some raised =>
      let cause ← maybe (do keyword "from"; deeper .expression)
      pure (.simple (raised :: cause.toList))) <|>
  (do
    keyword "global" <|> keyword "nonlocal"
    let _ ← separated name
    pure (.simple [])) <|>
  (do
    keyword "del"
    let deleted ← starExpressions deeper
    check (isDeletable deleted)
    pure (.simple [deleted])) <|>
  (do
    keyword "assert"
    let test ← deeper .expression
    let message ← maybe (do mark ","; deeper .expression)
    pure (.simple (test :: message.toList)))

/-- A statement that is not compound. -/
def simpleStatement (deeper : Deeper) : Rule Stmt :=
  importModules <|> importFrom <|> keywordStatement deeper <|> expressionStatement deeper

/-- Simple statements on one line. -/
def simpleStatements (deeper : Deeper) : Rule (List Stmt) := do
  let first ← simpleStatement deeper
  let others ← many (do mark ";"; simpleStatement deeper)
  let _ ← maybe (mark ";")
  newline
  pure (first :: others)

/-! ## Compound statements -/

/-- The body of a compound statement: a block of statements, or simple statements
on the same line. -/
def block (deeper : Deeper) (statements : Rule (List Stmt)) : Rule (List Stmt) :=
  (do
    newline
    indent
    let body ← statements
    dedent
    pure body) <|>
  simpleStatements deeper

/-- A colon and a body. -/
def suite (deeper : Deeper) (statements : Rule (List Stmt)) : Rule (List Stmt) := do
  mark ":"
  block deeper statements

/-- The body after `else`, empty without one. -/
def elseSuite (deeper : Deeper) (statements : Rule (List Stmt)) : Rule (List Stmt) := do
  if ← atKeyword "else" then
    keyword "else"
    suite deeper statements
  else pure []

/-- An `if` with its further conditions. -/
def ifStatement (deeper : Deeper) (statements : Rule (List Stmt)) : Rule Stmt := do
  keyword "if"
  let test ← namedExpression deeper
  let body ← suite deeper statements
  let others ← many (do
    keyword "elif"
    let test ← namedExpression deeper
    pure (test, ← suite deeper statements))
  let last ← elseSuite deeper statements
  pure (.ifElse test body
    (others.foldr (fun other rest => [.ifElse other.1 other.2 rest]) last))

/-- A `while` loop. -/
def whileStatement (deeper : Deeper) (statements : Rule (List Stmt)) : Rule Stmt := do
  keyword "while"
  let test ← namedExpression deeper
  let body ← suite deeper statements
  pure (.whileLoop test body (← elseSuite deeper statements))

/-- A `for` loop. -/
def forStatement (deeper : Deeper) (statements : Rule (List Stmt)) : Rule Stmt := do
  keyword "for"
  let target ← starTargets deeper
  keyword "in"
  let iterated ← starExpressions deeper
  let body ← suite deeper statements
  pure (.forLoop target iterated body (← elseSuite deeper statements))

/-- An item of a `with` statement. -/
def withItem (deeper : Deeper) : Rule (Expr × Option Expr) := do
  let context ← deeper .expression
  let target ← maybe (do keyword "as"; starTarget deeper)
  pure (context, target)

/-- The items of a `with` statement and the colon after them. Brackets around all
items are tried first. -/
def withHeader (deeper : Deeper) : Rule (List (Expr × Option Expr)) :=
  (do
    mark "("
    let (items, _) ← series (withItem deeper)
    mark ")"
    mark ":"
    pure items) <|>
  (do
    let items ← separated (withItem deeper)
    mark ":"
    pure items)

/-- A `with` statement. -/
def withStatement (deeper : Deeper) (statements : Rule (List Stmt)) : Rule Stmt := do
  keyword "with"
  let items ← withHeader deeper
  pure (.withItems items (← block deeper statements))

/-- A handler of one kind: for groups when `star` is set. -/
def handler (deeper : Deeper) (statements : Rule (List Stmt)) (star : Bool) :
    Rule (Handler Stmt) := do
  keyword "except"
  if star then mark "*" else pure ()
  let type ← if star then (do pure (some (← deeper .expression))) else maybe (deeper .expression)
  let _ ← if type.isSome then asName else pure none
  pure ⟨type, ← suite deeper statements⟩

/-- The body after `finally`, empty without one. -/
def finalSuite (deeper : Deeper) (statements : Rule (List Stmt)) : Rule (List Stmt) := do
  if ← atKeyword "finally" then
    keyword "finally"
    suite deeper statements
  else pure []

/-- Whether handlers for groups start here. -/
def atGroupHandler : Rule Bool :=
  lookAhead (fun
    | .keyword _ "except" :: .mark _ "*" :: _ => true
    | _ => false)

/-- A `try` statement: with handlers, all of one kind, or with a final body. -/
def tryStatement (deeper : Deeper) (statements : Rule (List Stmt)) : Rule Stmt := do
  keyword "try"
  let body ← suite deeper statements
  if ← atKeyword "finally" then
    pure (.tryBlock body [] [] (← finalSuite deeper statements))
  else
    let star ← atGroupHandler
    let handlers ← many1 (handler deeper statements star)
    let orelse ← elseSuite deeper statements
    pure (.tryBlock body handlers orelse (← finalSuite deeper statements))

/-- The subject of a `match` statement: one expression, or a tuple without
brackets. -/
def matchSubject (deeper : Deeper) : Rule Expr := do
  let (elements, comma) ← series (element deeper)
  check (comma || !elements.any isStarred)
  pure (tupleOf (elements, comma))

/-- The line that opens a `match` statement. -/
def matchHeader (deeper : Deeper) : Rule Expr := do
  softKeyword "match"
  let subject ← matchSubject deeper
  mark ":"
  newline
  pure subject

/-- A case of a `match` statement. -/
def matchCase (deeper : Deeper) (pattern : Rule Pattern) (statements : Rule (List Stmt)) :
    Rule (MatchCase Stmt) := do
  softKeyword "case"
  let shape ← casePattern pattern
  let guard ← maybe (do keyword "if"; namedExpression deeper)
  pure ⟨shape, guard, ← suite deeper statements⟩

/-- The cases of a `match` statement with the given subject. -/
def matchBody (deeper : Deeper) (pattern : Rule Pattern) (statements : Rule (List Stmt))
    (subject : Expr) : Rule Stmt := do
  indent
  let cases ← many1 (matchCase deeper pattern statements)
  dedent
  pure (.matchOn subject cases)

/-- A function definition, which starts on the given line. -/
def functionStatement (deeper : Deeper) (statements : Rule (List Stmt)) (start : Nat)
    (decorators : List Expr) : Rule Stmt := do
  keyword "def"
  let id ← name
  mark "("
  let hint := maybe (do mark ":"; deeper .expression)
  let starHint := maybe (do mark ":"; starredOperand deeper <|> deeper .expression)
  let parameters ← parameterList hint starHint (deeper .expression)
  mark ")"
  let returns ← maybe (do mark "->"; deeper .expression)
  let body ← suite deeper statements
  pure (.function ⟨start, id, parameters, body, decorators, returns⟩)

/-- A class definition, which starts on the given line. -/
def classStatement (deeper : Deeper) (statements : Rule (List Stmt)) (start : Nat)
    (decorators : List Expr) : Rule Stmt := do
  keyword "class"
  let id ← name
  let given ← if ← atMark "(" then arguments deeper false else pure ([], [])
  let body ← suite deeper statements
  pure (.classDef ⟨start, id, given.1, given.2, body, decorators⟩)

/-- A definition with its decorators, each on a line of its own. -/
def definition (deeper : Deeper) (statements : Rule (List Stmt)) : Rule Stmt := do
  let decorators ← many (do
    mark "@"
    let decorator ← namedExpression deeper
    newline
    pure decorator)
  let start ← line
  classStatement deeper statements start decorators <|>
    functionStatement deeper statements start decorators <|>
    (do keyword "async"; functionStatement deeper statements start decorators)

/-- A compound statement that is known by its first token. -/
def compoundStatement (deeper : Deeper) (statements : Rule (List Stmt)) : Rule Stmt :=
  ifStatement deeper statements <|> whileStatement deeper statements <|>
  forStatement deeper statements <|> withStatement deeper statements <|>
  tryStatement deeper statements <|>
  (do
    keyword "async"
    forStatement deeper statements <|> withStatement deeper statements) <|>
  definition deeper statements

/-- A statement, or simple statements on one line. -/
def statement (deeper : Deeper) (pattern : Rule Pattern) (statements : Rule (List Stmt)) :
    Rule (List Stmt) := do
  match ← maybe (matchHeader deeper) with
  | some subject => pure [← matchBody deeper pattern statements subject]
  | none =>
    (do pure [← compoundStatement deeper statements]) <|> simpleStatements deeper

/-- The rule for one or more statements that nest no deeper than the given
depth. -/
def statementsAt (deeper : Deeper) (pattern : Rule Pattern) : Nat → Rule (List Stmt)
  | 0 => failure
  | depth + 1 => do
    let found ← many1 (statement deeper pattern (statementsAt deeper pattern depth))
    pure found.flatten

/-! ## Whole texts -/

/-- The statements of a whole text. -/
def wholeText (deeper : Deeper) (pattern : Rule Pattern) (statements : Rule (List Stmt)) :
    Rule (List Stmt) := do
  let found ← many (statement deeper pattern statements)
  stop
  pure found.flatten

/-- A single expression as a whole text. -/
def wholeExpression (deeper : Deeper) : Rule Expr := do
  let found ← expressions deeper
  let _ ← many newline
  stop
  pure found

end CyclicCalls.Source.Grammar
