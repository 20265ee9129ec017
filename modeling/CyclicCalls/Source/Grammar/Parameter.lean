import CyclicCalls.Source.Grammar.Rule
/-!
# Parameter lists

A parameter list is read as a row of items, and then arranged. Parameters before
a slash can only be given by position; those after a star can only be given by
name. After a parameter with a default, every further one that can be given by
position has a default too. A star that stands alone has to be followed by a
parameter, and a doubled star ends the list.
-/

set_option autoImplicit false

namespace CyclicCalls.Source.Grammar

/-- One item of a parameter list. -/
inductive ParameterItem where
  | plain (given : Parameter) (default : Option Expr)
  | slash
  | star
  | rest (given : Parameter)
  | keywordRest (given : Parameter)

namespace ParameterItem

/-- Whether an item belongs to the parameters before the first star. -/
def isPositional : ParameterItem → Bool
  | .plain _ _ => true
  | .slash => true
  | _ => false

/-- Whether an item is the slash. -/
def isSlash : ParameterItem → Bool
  | .slash => true
  | _ => false

/-- The parameter of a plain item with its default. -/
def plain? : ParameterItem → Option (Parameter × Option Expr)
  | .plain given default => some (given, default)
  | _ => none

end ParameterItem

/-- All items as plain parameters. -/
def plains? (items : List ParameterItem) : Option (List (Parameter × Option Expr)) :=
  items.mapM ParameterItem.plain?

/-- Whether no parameter without a default follows one with a default. -/
def defaultsLast (given : List (Parameter × Option Expr)) : Bool :=
  (given.dropWhile (fun one => one.2.isNone)).all (fun one => one.2.isSome)

/-- The parameters before and after the slash, if there is one. -/
def splitAtSlash? (items : List ParameterItem) :
    Option (List (Parameter × Option Expr) × List (Parameter × Option Expr)) := do
  let before := items.takeWhile (fun item => !item.isSlash)
  match items.drop before.length with
  | [] => pure ([], ← plains? before)
  | _ :: after =>
    let first ← plains? before
    if first.isEmpty then none else pure (first, ← plains? after)

/-- The parameters given by name, and the one for all other names. -/
def keywordPart? (items : List ParameterItem) :
    Option (List (Parameter × Option Expr) × Option Parameter) :=
  match items.getLast? with
  | some (.keywordRest given) => (plains? items.dropLast).map (fun named => (named, some given))
  | _ => (plains? items).map (fun named => (named, none))

/-- The parameters of a row of items. -/
def arrange? (items : List ParameterItem) : Option Parameters := do
  let positional := items.takeWhile ParameterItem.isPositional
  let (before, after) ← splitAtSlash? positional
  if !defaultsLast (before ++ after) then none
  else
    let build := fun (rest : Option Parameter) (named : List (Parameter × Option Expr))
        (keywordRest : Option Parameter) =>
      Parameters.mk (before.map (·.1)) (after.map (·.1)) rest (named.map (·.1)) (named.map (·.2))
        keywordRest ((before ++ after).filterMap (·.2))
    match items.drop positional.length with
    | .star :: tail =>
      let (named, keywordRest) ← keywordPart? tail
      if named.isEmpty then none else pure (build none named keywordRest)
    | .rest given :: tail =>
      let (named, keywordRest) ← keywordPart? tail
      pure (build (some given) named keywordRest)
    | tail =>
      let (named, keywordRest) ← keywordPart? tail
      if named.isEmpty then pure (build none [] keywordRest) else none

/-- A parameter item. Its type hint is read by `hint`, which reads nothing where
hints are not allowed; the hint of a starred parameter by `starHint`. -/
def parameterItem (hint starHint : Rule (Option Expr)) (value : Rule Expr) : Rule ParameterItem :=
  (do Rule.mark "/"; pure .slash) <|>
  (do Rule.mark "**"; let id ← Rule.name; pure (.keywordRest (.mk id (← hint)))) <|>
  (do
    Rule.mark "*"
    (do let id ← Rule.name; pure (.rest (.mk id (← starHint)))) <|> pure .star) <|>
  (do
    let id ← Rule.name
    let given ← hint
    let default ← Rule.maybe (do Rule.mark "="; value)
    pure (.plain (.mk id given) default))

/-- A parameter list, perhaps empty. -/
def parameterList (hint starHint : Rule (Option Expr)) (value : Rule Expr) : Rule Parameters := do
  match ← Rule.maybe (Rule.series (parameterItem hint starHint value)) with
  | none => pure Parameters.none
  | some (items, _) =>
    match arrange? items with
    | some parameters => pure parameters
    | none => failure

end CyclicCalls.Source.Grammar
