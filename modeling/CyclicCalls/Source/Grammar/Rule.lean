import CyclicCalls.Source.Token
import CyclicCalls.Source.Tree
/-!
# Grammar rules

A rule reads a value off the front of a token list, or fails. Alternatives are
tried in order, and one that fails gives back what it had read, so the first
alternative that succeeds decides. What a rule leaves is always the end of what
it was given.
-/

set_option autoImplicit false

namespace CyclicCalls.Source.Grammar

/-- A rule for values of type `α`. -/
structure Rule (α : Type) where
  /-- The value read off the front of some tokens, and the tokens left. -/
  run : List Token → Option (α × List Token)
  leaves_suffix : ∀ tokens value rest, run tokens = some (value, rest) → rest <:+ tokens

namespace Rule

/-- A look at the tokens ahead, which reads none of them. -/
def lookAhead {α : Type} (look : List Token → α) : Rule α where
  run tokens := some (look tokens, tokens)
  leaves_suffix _ _ _ found := by
    cases found
    exact List.suffix_refl _

/-- One rule after another, which may depend on the value that the first reads. -/
def andThen {α β : Type} (rule : Rule α) (following : α → Rule β) : Rule β where
  run tokens :=
    match rule.run tokens with
    | none => none
    | some (value, rest) => (following value).run rest
  leaves_suffix _ _ _ found := by
    split at found
    · exact nomatch found
    · rename_i first
      exact ((following _).leaves_suffix _ _ _ found).trans (rule.leaves_suffix _ _ _ first)

/-- The first rule, or the second where the first fails. -/
def orElse {α : Type} (first : Rule α) (second : Unit → Rule α) : Rule α where
  run tokens :=
    match first.run tokens with
    | none => (second ()).run tokens
    | some result => some result
  leaves_suffix _ _ _ found := by
    split at found
    · exact (second ()).leaves_suffix _ _ _ found
    · rename_i here
      cases found
      exact first.leaves_suffix _ _ _ here

instance : Monad Rule where
  pure value := lookAhead (fun _ => value)
  bind := andThen

instance : Alternative Rule where
  failure := { run := fun _ => none, leaves_suffix := nofun }
  orElse := orElse

/-- The next token. -/
def next : Rule Token where
  run
    | [] => none
    | token :: rest => some (token, rest)
  leaves_suffix _ _ _ found := by
    split at found
    · exact nomatch found
    · cases found
      exact List.suffix_cons _ _

/-- The next token, without reading it. -/
def peek? : Rule (Option Token) := lookAhead List.head?

/-- The line of the next token. -/
def line : Rule Nat := do
  let token ← peek?
  pure ((token.map Token.line).getD 0)

/-- Fail unless a condition holds. -/
def check (condition : Bool) : Rule Unit :=
  if condition then pure () else failure

/-- An operator or a delimiter. -/
def mark (text : String) : Rule Unit := do
  match ← next with
  | .mark _ found => check (found == text)
  | _ => failure

/-- One of several operators or delimiters. -/
def oneOfMarks (texts : List String) : Rule Unit := do
  match ← next with
  | .mark _ found => check (texts.contains found)
  | _ => failure

/-- A keyword. -/
def keyword (text : String) : Rule Unit := do
  match ← next with
  | .keyword _ found => check (found == text)
  | _ => failure

/-- A name. -/
def name : Rule String := do
  match ← next with
  | .name _ text => pure text
  | _ => failure

/-- A name that is used as a keyword. -/
def softKeyword (text : String) : Rule Unit := do
  check ((← name) == text)

/-- The end of a line. -/
def newline : Rule Unit := do
  match ← next with
  | .newline => pure ()
  | _ => failure

/-- The start of a block. -/
def indent : Rule Unit := do
  match ← next with
  | .indent => pure ()
  | _ => failure

/-- The end of a block. -/
def dedent : Rule Unit := do
  match ← next with
  | .dedent => pure ()
  | _ => failure

/-- The end of the text. -/
def stop : Rule Unit := do
  match ← next with
  | .stop => pure ()
  | _ => failure

/-- Whether the next token is an operator or a delimiter with a given text. -/
def atMark (text : String) : Rule Bool := do
  match ← peek? with
  | some (.mark _ found) => pure (found == text)
  | _ => pure false

/-- Whether the next token is a given keyword. -/
def atKeyword (text : String) : Rule Bool := do
  match ← peek? with
  | some (.keyword _ found) => pure (found == text)
  | _ => pure false

/-- As many values as a rule reads one after the other. Each of them takes at
least one token. -/
def manyFrom {α : Type} (rule : Rule α) (tokens : List Token) : List α × List Token :=
  match rule.run tokens with
  | none => ([], tokens)
  | some (value, rest) =>
    if rest.length < tokens.length then
      let (values, final) := manyFrom rule rest
      (value :: values, final)
    else ([], tokens)
termination_by tokens.length

theorem manyFrom_suffix {α : Type} (rule : Rule α) (tokens : List Token) :
    (manyFrom rule tokens).2 <:+ tokens := by
  fun_induction manyFrom rule tokens with
  | case1 tokens => exact List.suffix_refl _
  | case2 tokens value rest found _ values final more ih =>
    rw [more] at ih
    exact ih.trans (rule.leaves_suffix _ _ _ found)
  | case3 tokens => exact List.suffix_refl _

/-- As many values as a rule reads one after the other, perhaps none. -/
def many {α : Type} (rule : Rule α) : Rule (List α) where
  run tokens := some (manyFrom rule tokens)
  leaves_suffix tokens _ _ found := by
    have ends := manyFrom_suffix rule tokens
    rwa [Option.some.inj found] at ends

/-- At least one value. -/
def many1 {α : Type} (rule : Rule α) : Rule (List α) := do
  let first ← rule
  let others ← many rule
  pure (first :: others)

/-- A value, or nothing when the rule fails. -/
def maybe {α : Type} (rule : Rule α) : Rule (Option α) :=
  (do pure (some (← rule))) <|> pure none

/-- Values separated by commas. -/
def separated {α : Type} (rule : Rule α) : Rule (List α) := do
  let first ← rule
  let others ← many (do mark ","; rule)
  pure (first :: others)

/-- Values separated by commas, with a final comma or without: the values, and
whether there was a comma at all. -/
def series {α : Type} (rule : Rule α) : Rule (List α × Bool) := do
  let values ← separated rule
  let final ← maybe (mark ",")
  pure (values, 1 < values.length || final.isSome)

end Rule

end CyclicCalls.Source.Grammar
