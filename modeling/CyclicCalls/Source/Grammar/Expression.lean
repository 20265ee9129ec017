import CyclicCalls.Source.Grammar.Parameter
/-!
# Expressions

The rules for expressions. A rule that goes inside brackets, or below an operator
that binds to its right, calls for an expression one level deeper; the deeper
rules are a parameter of all others, and `expressionAt` supplies them down to a
given depth. Every level takes at least one token, so that a depth as large as
the text is never used up.

Where a target is assigned to, an expression is read and then checked to be one
that can be assigned to.
-/

set_option autoImplicit false

namespace CyclicCalls.Source.Grammar

open Rule

/-- The kinds of expressions that occur inside others, from loose to tight. -/
inductive Level where
  | expression
  | disjunction
  | inversion
  | bitwise
  | factor
deriving DecidableEq, Repr

/-- The rules for expressions one level deeper. -/
abbrev Deeper := Level → Rule Expr

/-! ## Targets -/

mutual

/-- Whether an expression can be assigned to. -/
def isTarget : Expr → Bool
  | .name _ => true
  | .attribute _ _ => true
  | .subscript _ _ => true
  | .tuple elements => areTargets elements
  | .list elements => areTargets elements
  | _ => false

/-- Whether all elements can be assigned to; a starred one takes what is left. -/
def areTargets : List Expr → Bool
  | [] => true
  | .starred value :: rest => isTarget value && areTargets rest
  | element :: rest => isTarget element && areTargets rest

end

/-- Whether an expression can be assigned to, perhaps with a star. -/
def isStarTarget : Expr → Bool
  | .starred value => isTarget value
  | expression => isTarget expression

/-- Whether an expression is a name, an attribute or a subscript. -/
def isSingleTarget : Expr → Bool
  | .name _ => true
  | .attribute _ _ => true
  | .subscript _ _ => true
  | _ => false

mutual

/-- Whether an expression can be deleted. -/
def isDeletable : Expr → Bool
  | .name _ => true
  | .attribute _ _ => true
  | .subscript _ _ => true
  | .tuple elements => areDeletable elements
  | .list elements => areDeletable elements
  | _ => false

/-- Whether all elements can be deleted. -/
def areDeletable : List Expr → Bool
  | [] => true
  | element :: rest => isDeletable element && areDeletable rest

end

/-! ## Series of expressions -/

/-- One expression as it is; several, or one with a comma, as a tuple. -/
def tupleOf : List Expr × Bool → Expr
  | ([expression], false) => expression
  | (expressions, _) => .tuple expressions

/-- A starred operand. -/
def starredOperand (deeper : Deeper) : Rule Expr := do
  mark "*"
  pure (.starred (← deeper .bitwise))

/-- An expression, or an assignment to a name inside an expression. -/
def namedExpression (deeper : Deeper) : Rule Expr :=
  (do
    let id ← name
    mark ":="
    pure (.named (.name id) (← deeper .expression))) <|>
  (do
    let expression ← deeper .expression
    check (!(← atMark ":="))
    pure expression)

/-- Whether an assignment to a name starts here. -/
def atNamed : Rule Bool :=
  lookAhead (fun
    | .name _ _ :: .mark _ ":=" :: _ => true
    | _ => false)

/-- An element of a display. -/
def element (deeper : Deeper) : Rule Expr :=
  starredOperand deeper <|> namedExpression deeper

/-- Expressions separated by commas. -/
def expressions (deeper : Deeper) : Rule Expr := do
  pure (tupleOf (← series (deeper .expression)))

/-- Expressions separated by commas, some of them starred. -/
def starExpressions (deeper : Deeper) : Rule Expr := do
  pure (tupleOf (← series (starredOperand deeper <|> deeper .expression)))

/-- A target, perhaps with a star. -/
def starTarget (deeper : Deeper) : Rule Expr := do
  let target ← starredOperand deeper <|> deeper .bitwise
  check (isStarTarget target)
  pure target

/-- Targets separated by commas. -/
def starTargets (deeper : Deeper) : Rule Expr := do
  let (targets, comma) ← series (starTarget deeper)
  pure (tupleOf (targets, comma))

/-- A `yield`, with a value or without, or from another generator. -/
def yieldExpression (deeper : Deeper) : Rule Expr := do
  keyword "yield"
  (do keyword "from"; pure (.yieldFrom (← deeper .expression))) <|>
    (do pure (.yield (← maybe (starExpressions deeper))))

/-! ## Comprehensions -/

/-- Whether a `for` clause starts here. -/
def atForClause : Rule Bool := do
  pure ((← atKeyword "for") || (← atKeyword "async"))

/-- A `for` clause with its conditions. -/
def forClause (deeper : Deeper) : Rule ForClause := do
  let _ ← maybe (keyword "async")
  keyword "for"
  let target ← starTargets deeper
  keyword "in"
  let iterated ← deeper .disjunction
  let conditions ← many (do keyword "if"; deeper .disjunction)
  pure (.mk target iterated conditions)

/-- The clauses of a comprehension over the given elements. -/
def comprehension (deeper : Deeper) (elements : List Expr) : Rule Expr := do
  pure (.comprehension elements (← many1 (forClause deeper)))

/-- Whether an expression has a star. -/
def isStarred : Expr → Bool
  | .starred _ => true
  | _ => false

/-- Further elements after the first, each after a comma, and a final comma. -/
def moreElements (deeper : Deeper) : Rule (List Expr) := do
  let others ← many (do mark ","; element deeper)
  let _ ← maybe (mark ",")
  pure others

/-! ## Displays -/

/-- What stands between round brackets: nothing, a `yield`, one expression, a
tuple, or a generator. -/
def parenthesized (deeper : Deeper) : Rule Expr := do
  mark "("
  if ← atMark ")" then
    mark ")"
    pure (.tuple [])
  else if ← atKeyword "yield" then
    let expression ← yieldExpression deeper
    mark ")"
    pure expression
  else
    let first ← element deeper
    if (← atForClause) && !isStarred first then
      let expression ← comprehension deeper [first]
      mark ")"
      pure expression
    else if ← atMark "," then
      let others ← moreElements deeper
      mark ")"
      pure (.tuple (first :: others))
    else
      check (!isStarred first)
      mark ")"
      pure first

/-- A list or a list comprehension. -/
def bracketed (deeper : Deeper) : Rule Expr := do
  mark "["
  if ← atMark "]" then
    mark "]"
    pure (.list [])
  else
    let first ← element deeper
    if (← atForClause) && !isStarred first then
      let expression ← comprehension deeper [first]
      mark "]"
      pure expression
    else
      let others ← moreElements deeper
      mark "]"
      pure (.list (first :: others))

/-- An item of a dictionary: a key with its value, or a mapping to unpack. -/
def dictItem (deeper : Deeper) : Rule (Option Expr × Expr) :=
  (do mark "**"; pure (none, ← deeper .bitwise)) <|>
  (do
    let key ← deeper .expression
    mark ":"
    pure (some key, ← deeper .expression))

/-- The rest of a dictionary after its first item. -/
def dictRest (deeper : Deeper) (first : Option Expr × Expr) : Rule Expr := do
  let others ← many (do mark ","; dictItem deeper)
  let _ ← maybe (mark ",")
  mark "\x7d"
  pure (.dict ((first :: others).map (·.1)) ((first :: others).map (·.2)))

/-- A dictionary, a set, or a comprehension of either. -/
def braced (deeper : Deeper) : Rule Expr := do
  mark "\x7b"
  if ← atMark "\x7d" then
    mark "\x7d"
    pure (.dict [] [])
  else if ← atMark "**" then
    let first ← dictItem deeper
    dictRest deeper first
  else
    let named ← atNamed
    let first ← element deeper
    if (← atMark ":") && !isStarred first && !named then
      mark ":"
      let value ← deeper .expression
      if ← atForClause then
        let expression ← comprehension deeper [first, value]
        mark "\x7d"
        pure expression
      else dictRest deeper (some first, value)
    else if (← atForClause) && !isStarred first then
      let expression ← comprehension deeper [first]
      mark "\x7d"
      pure expression
    else
      let others ← moreElements deeper
      mark "\x7d"
      pure (.set (first :: others))

/-! ## Text literals -/

/-- A text literal token: whether it is binary, and its fields. -/
def textToken : Rule (Bool × List (List Token)) := do
  match ← next with
  | .text _ binary fields => pure (binary, fields)
  | _ => failure

/-- The expression of a replacement field. -/
def field? (deeper : Deeper) (tokens : List Token) : Option Expr :=
  match (starExpressions deeper).run tokens with
  | some (expression, [.newline, .stop]) => some expression
  | _ => none

/-- Adjacent text literals; either all of them are binary or none. -/
def textLiteral (deeper : Deeper) : Rule Expr := do
  let parts ← many1 textToken
  check (parts.all (·.1) || !parts.any (·.1))
  match (parts.flatMap (·.2)).mapM (field? deeper) with
  | some [] => pure .literal
  | some fields => pure (.interpolated fields)
  | none => failure

/-! ## Calls and subscripts -/

/-- An argument of a call. -/
inductive Argument where
  | positional (value : Expr)
  | unpacked (value : Expr)
  | keyword (value : Expr)
  | unpackedKeywords (value : Expr)

namespace Argument

/-- Arguments by position, in order. -/
def byPosition : Argument → Option Expr
  | .positional value => some value
  | .unpacked value => some (.starred value)
  | _ => none

/-- The values of arguments by name, in order. -/
def byName : Argument → Option Expr
  | .keyword value => some value
  | .unpackedKeywords value => some value
  | _ => none

/-- Plain arguments come before those by name, and nothing but arguments by name
follows an unpacked mapping. -/
def inOrder : List Argument → Bool
  | [] => true
  | .positional _ :: rest => inOrder rest
  | .unpacked _ :: rest => inOrder rest
  | .keyword _ :: rest =>
    rest.all (fun | .positional _ => false | _ => true) && inOrder rest
  | .unpackedKeywords _ :: rest =>
    rest.all (fun | .positional _ => false | .unpacked _ => false | _ => true) && inOrder rest

end Argument

/-- An argument of a call. -/
def argument (deeper : Deeper) : Rule Argument :=
  (do mark "*"; pure (.unpacked (← deeper .expression))) <|>
  (do mark "**"; pure (.unpackedKeywords (← deeper .expression))) <|>
  (do let _ ← name; mark "="; pure (.keyword (← deeper .expression))) <|>
  (do
    let value ← namedExpression deeper
    check (!(← atMark "="))
    pure (.positional value))

/-- The arguments between the brackets of a call: those by position, and the
values of those by name. A generator that is the only argument needs no brackets
of its own where `generator` says so. -/
def arguments (deeper : Deeper) (generator : Bool) : Rule (List Expr × List Expr) := do
  mark "("
  if ← atMark ")" then
    mark ")"
    pure ([], [])
  else
    let first ← argument deeper
    match first, generator && (← atForClause) with
    | .positional value, true =>
      let expression ← comprehension deeper [value]
      mark ")"
      pure ([expression], [])
    | _, _ =>
      let others ← many (do mark ","; argument deeper)
      let _ ← maybe (mark ",")
      mark ")"
      check (Argument.inOrder (first :: others))
      pure ((first :: others).filterMap Argument.byPosition,
        (first :: others).filterMap Argument.byName)

/-- The bounds of a slice after its lower one. -/
def sliceRest (deeper : Deeper) (lower : Option Expr) : Rule Expr := do
  mark ":"
  let upper ← maybe (deeper .expression)
  let step ← maybe (do mark ":"; maybe (deeper .expression))
  pure (.slice lower upper step.join)

/-- An item between the brackets of a subscript. -/
def sliceItem (deeper : Deeper) : Rule Expr :=
  (do mark "*"; pure (.starred (← deeper .expression))) <|>
  sliceRest deeper none <|>
  (do
    let named ← atNamed
    let first ← namedExpression deeper
    if (← atMark ":") && !named then sliceRest deeper (some first) else pure first)

/-- What stands between the brackets of a subscript. -/
def slices (deeper : Deeper) : Rule Expr := do
  let (items, comma) ← series (sliceItem deeper)
  pure (tupleOf (items, comma || items.any isStarred))

/-- What may follow an operand: an attribute, a call or a subscript. -/
def trailer (deeper : Deeper) (line : Nat) : Rule (Expr → Expr) :=
  (do
    mark "."
    let attr ← name
    pure (fun value => .attribute value attr)) <|>
  (do
    let (byPosition, byName) ← arguments deeper true
    pure (fun value => .call line value byPosition byName)) <|>
  (do
    mark "["
    let index ← slices deeper
    mark "]"
    pure (fun value => .subscript value index))

/-! ## Operators -/

/-- An operand without trailers. -/
def atom (deeper : Deeper) : Rule Expr := do
  match ← peek? with
  | some (.name _ _) => pure (.name (← name))
  | some (.number _ _) =>
    let _ ← next
    pure .literal
  | some (.text _ _ _) => textLiteral deeper
  | some (.keyword _ text) =>
    check (["True", "False", "None"].contains text)
    let _ ← next
    pure .literal
  | some (.mark _ text) =>
    if text == "(" then parenthesized deeper
    else if text == "[" then bracketed deeper
    else if text == "\x7b" then braced deeper
    else
      check (text == "...")
      let _ ← next
      pure .literal
  | _ => failure

/-- An operand with its trailers. A call starts on the line of its operand. -/
def primary (deeper : Deeper) : Rule Expr := do
  let start ← line
  let base ← atom deeper
  let trailers ← many (trailer deeper start)
  pure (trailers.foldl (fun value wrap => wrap value) base)

/-- An operand that may be awaited. -/
def awaited (deeper : Deeper) : Rule Expr :=
  (do keyword "await"; pure (.await (← primary deeper))) <|> primary deeper

/-- A power. -/
def power (deeper : Deeper) : Rule Expr := do
  let base ← awaited deeper
  (do mark "**"; pure (.binary base (← deeper .factor))) <|> pure base

/-- An operand with a sign. -/
def factor (deeper : Deeper) : Rule Expr :=
  (do oneOfMarks ["+", "-", "~"]; pure (.unary (← deeper .factor))) <|> power deeper

/-- Operands joined from left to right by some of the given operators. -/
def chain (operators : List String) (operand : Rule Expr) : Rule Expr := do
  let first ← operand
  let others ← many (do oneOfMarks operators; operand)
  pure (others.foldl .binary first)

/-- Operands joined by arithmetic and bitwise operators. -/
def bitwise (deeper : Deeper) : Rule Expr :=
  let product := chain ["*", "/", "//", "%", "@"] (factor deeper)
  let sum := chain ["+", "-"] product
  let shift := chain ["<<", ">>"] sum
  let conjunct := chain ["&"] shift
  let difference := chain ["^"] conjunct
  chain ["|"] difference

/-- The operators of comparisons. -/
def comparator : Rule Unit :=
  oneOfMarks ["==", "!=", "<", "<=", ">", ">="] <|> keyword "in" <|>
  (do keyword "not"; keyword "in") <|> (do keyword "is"; keyword "not") <|> keyword "is"

/-- A comparison, or a single operand. -/
def comparison (deeper : Deeper) : Rule Expr := do
  let first ← bitwise deeper
  let others ← many (do comparator; bitwise deeper)
  pure (if others.isEmpty then first else .comparison first others)

/-- A comparison that may be negated. -/
def inversion (deeper : Deeper) : Rule Expr :=
  (do keyword "not"; pure (.unary (← deeper .inversion))) <|> comparison deeper

/-- Operands joined by one of the words `and` and `or`. -/
def junction (word : String) (operand : Rule Expr) : Rule Expr := do
  let first ← operand
  let others ← many (do keyword word; operand)
  pure (if others.isEmpty then first else .junction (first :: others))

/-- Operands joined by `and` and, more loosely, by `or`. -/
def disjunction (deeper : Deeper) : Rule Expr :=
  junction "or" (junction "and" (inversion deeper))

/-- A function without a name. -/
def lambda (deeper : Deeper) : Rule Expr := do
  keyword "lambda"
  let parameters ← parameterList (pure none) (pure none) (deeper .expression)
  mark ":"
  pure (.lambda parameters (← deeper .expression))

/-- An expression: a choice by a condition, or a function without a name. -/
def expression (deeper : Deeper) : Rule Expr :=
  lambda deeper <|>
  (do
    let body ← disjunction deeper
    (do
      keyword "if"
      let test ← disjunction deeper
      keyword "else"
      pure (.conditional test body (← deeper .expression))) <|> pure body)

/-- The rules for expressions that nest no deeper than the given depth. -/
def expressionAt : Nat → Deeper
  | 0, _ => failure
  | depth + 1, level =>
    match level with
    | .expression => expression (expressionAt depth)
    | .disjunction => disjunction (expressionAt depth)
    | .inversion => inversion (expressionAt depth)
    | .bitwise => bitwise (expressionAt depth)
    | .factor => factor (expressionAt depth)

end CyclicCalls.Source.Grammar
