import CyclicCalls.Source.Grammar.Expression
/-!
# Patterns

The rules for the patterns of a `match` statement. The parts of a pattern are
patterns one level deeper, supplied as for expressions down to a given depth.
-/

set_option autoImplicit false

namespace CyclicCalls.Source.Grammar

open Rule

/-- A number: whether it is imaginary. -/
def numberToken : Rule Bool := do
  match ← next with
  | .number _ imaginary => pure imaginary
  | _ => failure

/-- A number with an optional minus sign, or the sum or difference of a real
number and an imaginary one. -/
def patternNumber : Rule Expr := do
  let _ ← maybe (mark "-")
  let imaginary ← numberToken
  if (← atMark "+") || (← atMark "-") then
    let _ ← next
    let second ← numberToken
    check (!imaginary && second)
    pure (.binary .literal .literal)
  else pure .literal

/-- One of the words for a constant. -/
def constantWord : Rule Expr := do
  keyword "None" <|> keyword "True" <|> keyword "False"
  pure .literal

/-- A literal in a pattern. -/
def patternLiteral (deeper : Deeper) : Rule Expr :=
  patternNumber <|> textLiteral deeper <|> constantWord

/-- Whether a name is followed by something that makes it more than a binding. -/
def atNameTail : Rule Bool := do
  pure ((← atMark ".") || (← atMark "(") || (← atMark "="))

/-- A name that is bound. -/
def bindingName : Rule Unit := do
  let id ← name
  check (id != "_")
  check (!(← atNameTail))

/-- A name with attributes, at least the given number of them. -/
def dottedExpr (atLeast : Nat) : Rule Expr := do
  let id ← name
  let attrs ← many (do mark "."; name)
  check (atLeast ≤ attrs.length)
  pure (attrs.foldl .attribute (.name id))

/-- A binding with a star. -/
def starPattern : Rule Pattern := do
  mark "*"
  bindingName <|> softKeyword "_"
  pure .binding

/-- A part of a sequence: the pattern, and whether it has a star. -/
def sequencePart (pattern : Rule Pattern) : Rule (Pattern × Bool) :=
  (do pure (← starPattern, true)) <|> (do pure (← pattern, false))

/-- Patterns between round brackets: a group of one, or a sequence. -/
def parenthesizedPattern (pattern : Rule Pattern) : Rule Pattern := do
  mark "("
  if ← atMark ")" then
    mark ")"
    pure (.sequence [])
  else
    let (parts, comma) ← series (sequencePart pattern)
    mark ")"
    match parts, comma with
    | [(part, starred)], false =>
      check (!starred)
      pure part
    | _, _ => pure (.sequence (parts.map (·.1)))

/-- Patterns between square brackets. -/
def bracketedPattern (pattern : Rule Pattern) : Rule Pattern := do
  mark "["
  if ← atMark "]" then
    mark "]"
    pure (.sequence [])
  else
    let (parts, _) ← series (sequencePart pattern)
    mark "]"
    pure (.sequence (parts.map (·.1)))

/-- An item of a mapping: a key with a pattern, or a binding for the rest. -/
def mappingItem (deeper : Deeper) (pattern : Rule Pattern) : Rule (Option (Expr × Pattern)) :=
  (do mark "**"; bindingName; pure none) <|>
  (do
    let key ← patternLiteral deeper <|> dottedExpr 1
    mark ":"
    pure (some (key, ← pattern)))

/-- A pattern for a mapping; a binding for the rest stands last. -/
def mappingPattern (deeper : Deeper) (pattern : Rule Pattern) : Rule Pattern := do
  mark "\x7b"
  if ← atMark "\x7d" then
    mark "\x7d"
    pure (.mapping [] [])
  else
    let (items, _) ← series (mappingItem deeper pattern)
    mark "\x7d"
    check (items.dropLast.all Option.isSome)
    let pairs := items.filterMap id
    pure (.mapping (pairs.map (·.1)) (pairs.map (·.2)))

/-- An argument of a class pattern: whether it is given by name, and its
pattern. -/
def classPart (pattern : Rule Pattern) : Rule (Bool × Pattern) :=
  (do let _ ← name; mark "="; pure (true, ← pattern)) <|> (do pure (false, ← pattern))

/-- A pattern for the instances of a class; arguments by name stand last. -/
def classPattern (pattern : Rule Pattern) : Rule Pattern := do
  let type ← dottedExpr 0
  mark "("
  if ← atMark ")" then
    mark ")"
    pure (.instanceOf type [] [])
  else
    let (parts, _) ← series (classPart pattern)
    mark ")"
    check ((parts.dropWhile (fun part => !part.1)).all (·.1))
    pure (.instanceOf type ((parts.filter (fun part => !part.1)).map (·.2))
      ((parts.filter (·.1)).map (·.2)))

/-- A pattern that is not an alternative. -/
def closedPattern (deeper : Deeper) (pattern : Rule Pattern) : Rule Pattern :=
  (do pure (.value (← patternLiteral deeper))) <|>
  (do bindingName; pure .binding) <|>
  (do softKeyword "_"; pure .binding) <|>
  (do
    let value ← dottedExpr 1
    check (!(← atNameTail))
    pure (.value value)) <|>
  parenthesizedPattern pattern <|> bracketedPattern pattern <|> mappingPattern deeper pattern <|>
  classPattern pattern

/-- Alternatives, perhaps bound to a name as a whole. -/
def asPattern (deeper : Deeper) (pattern : Rule Pattern) : Rule Pattern := do
  let first ← closedPattern deeper pattern
  let others ← many (do mark "|"; closedPattern deeper pattern)
  let alternatives := if others.isEmpty then first else .oneOf (first :: others)
  (do keyword "as"; bindingName; pure (.bound alternatives)) <|> pure alternatives

/-- The rule for patterns that nest no deeper than the given depth. -/
def patternAt (deeper : Deeper) : Nat → Rule Pattern
  | 0 => failure
  | depth + 1 => asPattern deeper (patternAt deeper depth)

/-- The pattern of a case: one pattern, or a sequence without brackets. -/
def casePattern (pattern : Rule Pattern) : Rule Pattern := do
  let (parts, comma) ← series (sequencePart pattern)
  match parts, comma with
  | [(part, starred)], false =>
    check (!starred)
    pure part
  | _, _ => pure (.sequence (parts.map (·.1)))

end CyclicCalls.Source.Grammar
