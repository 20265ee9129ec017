import CyclicCalls.Proofs.TokenLines
import CyclicCalls.Source.Reading
/-!
# The lines of definitions

A function that a statement defines starts on the line of its first keyword. In the order of the
text (`definedIn`, `definedInBody`) these lines rise strictly (`definedInBody_rising`), for every
source that can be read: the parts of a compound statement follow one another, and a definition
takes up at least one line of its own.

The grammar decides this, not the tree. A rule is followed along the lines of its tokens: given
tokens from a line on, it leaves tokens from some later line on, and its value is related to the
two lines (`Spans`). Every rule leaves the end of what it was given, so a rule that defines
nothing can be passed over (`Spans.read`); the end of a line moves on (`Spans.newline`); and
repeated rules give rising lines when each of them does (`Spans.many`). A body takes up at least
the rest of a line (`RisingSuite`), and this is what keeps two definitions apart. The rules for
statements are then gone through one by one, down to the depth supplied
(`rising_statementsAt`).
-/

set_option autoImplicit false

namespace CyclicCalls.Source

/-! ## Definitions in the order of the text -/

mutual

/-- The lines of the functions that a statement defines for the scope it is in, or for a class
in it, in the order of the text. -/
def definedIn : Stmt → List Nat
  | .function definition => [definition.line]
  | .classDef ⟨_, _, _, _, body, _⟩ => definedInBody body
  | .importModules _ => []
  | .importFrom _ _ _ => []
  | .ifElse _ body orelse => definedInBody body ++ definedInBody orelse
  | .whileLoop _ body orelse => definedInBody body ++ definedInBody orelse
  | .forLoop _ _ body orelse => definedInBody body ++ definedInBody orelse
  | .withItems _ body => definedInBody body
  | .tryBlock body handlers orelse finalBody =>
    definedInBody body ++
      (definedInHandlers handlers ++ (definedInBody orelse ++ definedInBody finalBody))
  | .matchOn _ cases => definedInCases cases
  | .simple _ => []

def definedInBody : List Stmt → List Nat
  | [] => []
  | statement :: rest => definedIn statement ++ definedInBody rest

def definedInHandlers : List (Handler Stmt) → List Nat
  | [] => []
  | ⟨_, body⟩ :: rest => definedInBody body ++ definedInHandlers rest

def definedInCases : List (MatchCase Stmt) → List Nat
  | [] => []
  | ⟨_, _, body⟩ :: rest => definedInBody body ++ definedInCases rest

end

theorem definedInBody_eq_flatMap (statements : List Stmt) :
    definedInBody statements = statements.flatMap definedIn := by
  induction statements with
  | nil => rfl
  | cons statement rest ih => rw [definedInBody, ih, List.flatMap_cons]

theorem definedInHandlers_eq_flatMap (handlers : List (Handler Stmt)) :
    definedInHandlers handlers = handlers.flatMap (fun clause => definedInBody clause.body) := by
  induction handlers with
  | nil => rfl
  | cons clause rest ih => rw [definedInHandlers, ih, List.flatMap_cons]

theorem definedInCases_eq_flatMap (cases : List (MatchCase Stmt)) :
    definedInCases cases = cases.flatMap (fun clause => definedInBody clause.body) := by
  induction cases with
  | nil => rfl
  | cons clause rest ih => rw [definedInCases, ih, List.flatMap_cons]

theorem definedInBody_flatten (parts : List (List Stmt)) :
    definedInBody parts.flatten = parts.flatMap definedInBody := by
  induction parts with
  | nil => rfl
  | cons part rest ih =>
      rw [List.flatten_cons, List.flatMap_cons, ← ih]
      simp only [definedInBody_eq_flatMap, List.flatMap_append]

/-- The further conditions of an `if` are nested, but follow one another in the text. -/
theorem definedInBody_foldr (others : List (Expr × List Stmt)) (last : List Stmt) :
    definedInBody (others.foldr (fun other rest => [.ifElse other.1 other.2 rest]) last) =
      others.flatMap (fun other => definedInBody other.2) ++ definedInBody last := by
  induction others with
  | nil => rfl
  | cons other rest ih =>
      simp only [List.foldr_cons, definedInBody, definedIn, ih, List.flatMap_cons,
        List.append_nil, List.append_assoc]

/-! ## Rising lines -/

/-- The lines rise, from a first line on and before a last one. -/
structure Rising (lower upper : Nat) (lines : List Nat) : Prop where
  le : lower ≤ upper
  within : ∀ line ∈ lines, lower ≤ line ∧ line < upper
  rising : lines.Pairwise (· < ·)

namespace Rising

theorem nil {lower upper : Nat} (le : lower ≤ upper) : Rising lower upper [] :=
  ⟨le, (fun _ member => nomatch member), .nil⟩

theorem single {lower line upper : Nat} (above : lower ≤ line) (below : line < upper) :
    Rising lower upper [line] :=
  ⟨Nat.le_of_lt (Nat.lt_of_le_of_lt above below), List.forall_mem_singleton.mpr ⟨above, below⟩,
    List.pairwise_singleton _ _⟩

theorem append {lower middle upper : Nat} {first second : List Nat}
    (left : Rising lower middle first) (right : Rising middle upper second) :
    Rising lower upper (first ++ second) := by
  refine ⟨Nat.le_trans left.le right.le, fun line member => ?_, List.pairwise_append.mpr
    ⟨left.rising, right.rising, fun one here other there => ?_⟩⟩
  · have := left.le
    have := right.le
    rcases List.mem_append.mp member with here | there
    · have := left.within line here
      omega
    · have := right.within line there
      omega
  · exact Nat.lt_of_lt_of_le (left.within one here).2 (right.within other there).1

theorem mono {lower upper least most : Nat} {lines : List Nat} (rising : Rising lower upper lines)
    (below : least ≤ lower) (above : upper ≤ most) : Rising least most lines := by
  have le := rising.le
  refine ⟨by omega, fun line member => ?_, rising.rising⟩
  have := rising.within line member
  omega

end Rising

namespace Grammar

open Rule

/-! ## Rules over lines -/

/-- What one rule after another reads is read by both of them. -/
theorem exists_of_run_bind {α β : Type} {rule : Rule β} {following : β → Rule α}
    {tokens rest : List Token} {value : α}
    (read : (rule >>= following).run tokens = some (value, rest)) :
    ∃ first middle, rule.run tokens = some (first, middle) ∧
      (following first).run middle = some (value, rest) := by
  change (rule.andThen following).run tokens = some (value, rest) at read
  simp only [andThen] at read
  cases began : rule.run tokens with
  | none =>
      rw [began] at read
      cases read
  | some result =>
      rw [began] at read
      exact ⟨result.1, result.2, rfl, read⟩

/-- What one of two rules reads is read by the first or by the second. -/
theorem run_orElse {α : Type} {first second : Rule α} {tokens rest : List Token} {value : α}
    (read : (first <|> second).run tokens = some (value, rest)) :
    first.run tokens = some (value, rest) ∨ second.run tokens = some (value, rest) := by
  change (first.orElse (fun _ => second)).run tokens = some (value, rest) at read
  unfold Rule.orElse at read
  dsimp only at read
  split at read
  · exact .inr read
  · rename_i here
    cases read
    exact .inl here

theorem eq_cons_of_run_newline {tokens rest : List Token} {value : Unit}
    (read : newline.run tokens = some (value, rest)) : tokens = .newline :: rest := by
  obtain ⟨token, left, began, went⟩ := exists_of_run_bind read
  cases tokens with
  | nil => exact nomatch began
  | cons first tail =>
      cases began
      cases token with
      | newline =>
          cases went
          rfl
      | _ => exact nomatch went

theorem exists_of_run_keyword {text : String} {tokens rest : List Token} {value : Unit}
    (read : (keyword text).run tokens = some (value, rest)) :
    ∃ line found, tokens = .keyword line found :: rest := by
  obtain ⟨token, left, began, went⟩ := exists_of_run_bind read
  cases tokens with
  | nil => exact nomatch began
  | cons first tail =>
      cases began
      cases token with
      | keyword line found =>
          change (check (found == text)).run left = some (value, rest) at went
          unfold check at went
          split at went
          · cases went
            exact ⟨line, found, rfl⟩
          · exact nomatch went
      | _ => exact nomatch went

/-- When a rule is given tokens from a line on, it leaves tokens from some later line on, and
its value is related to that line. -/
def Spans {α : Type} (lower : Nat) (rule : Rule α) (relates : α → Nat → Prop) : Prop :=
  ∀ tokens value rest, rule.run tokens = some (value, rest) → Lined lower tokens →
    ∃ upper, lower ≤ upper ∧ relates value upper ∧ Lined upper rest

namespace Spans

variable {α β : Type} {lower : Nat} {relates : α → Nat → Prop}

theorem pure {value : α} (related : relates value lower) :
    Spans lower (Pure.pure value : Rule α) relates := by
  intro tokens found rest read lined
  cases read
  exact ⟨lower, Nat.le_refl _, related, lined⟩

theorem failure : Spans lower (Alternative.failure : Rule α) relates :=
  fun _ _ _ read => nomatch read

theorem mono {rule : Rule α} {weaker : α → Nat → Prop} (spans : Spans lower rule relates)
    (implies : ∀ value upper, lower ≤ upper → relates value upper → weaker value upper) :
    Spans lower rule weaker := by
  intro tokens value rest read lined
  obtain ⟨upper, le, related, left⟩ := spans tokens value rest read lined
  exact ⟨upper, le, implies value upper le related, left⟩

theorem bind {rule : Rule β} {following : β → Rule α} {between : β → Nat → Prop}
    (first : Spans lower rule between)
    (second : ∀ value middle, lower ≤ middle → between value middle →
      Spans middle (following value) relates) :
    Spans lower (rule >>= following) relates := by
  intro tokens value rest read lined
  obtain ⟨here, left, began, went⟩ := exists_of_run_bind read
  obtain ⟨middle, le, related, still⟩ := first tokens here left began lined
  obtain ⟨upper, above, found, last⟩ := second here middle le related left value rest went still
  exact ⟨upper, Nat.le_trans le above, found, last⟩

/-- A rule of which nothing else is known leaves tokens from the same line on. -/
theorem read {rule : Rule β} {following : β → Rule α}
    (second : ∀ value, Spans lower (following value) relates) :
    Spans lower (rule >>= following) relates := by
  have same : Spans lower rule (fun _ middle => middle = lower) := by
    intro tokens value rest began lined
    exact ⟨lower, Nat.le_refl _, rfl, lined.of_suffix (rule.leaves_suffix _ _ _ began)⟩
  refine same.bind fun value middle _ stays => ?_
  rw [stays]
  exact second value

theorem orElse {first second : Rule α} (left : Spans lower first relates)
    (right : Spans lower second relates) : Spans lower (first <|> second) relates := by
  intro tokens value rest read lined
  rcases run_orElse read with here | there
  · exact left tokens value rest here lined
  · exact right tokens value rest there lined

/-- After the end of a line the tokens stand on a later one. -/
theorem newline {following : Unit → Rule α} (second : Spans (lower + 1) (following ()) relates) :
    Spans lower (newline >>= following) relates := by
  intro tokens value rest read lined
  obtain ⟨here, left, began, went⟩ := exists_of_run_bind read
  rw [eq_cons_of_run_newline began] at lined
  obtain ⟨upper, le, related, last⟩ := second left value rest went lined.2
  exact ⟨upper, Nat.le_of_succ_le le, related, last⟩

/-- As many values as a rule reads have rising lines, when those of each value rise. -/
theorem many {rule : Rule β} (lines : β → List Nat)
    (each : ∀ lower, Spans lower rule (fun value upper => Rising lower upper (lines value)))
    (lower : Nat) :
    Spans lower (many rule) (fun values upper => Rising lower upper (values.flatMap lines)) := by
  have run (tokens : List Token) : ∀ lower, Lined lower tokens →
      ∃ upper, Rising lower upper ((manyFrom rule tokens).1.flatMap lines) ∧
        Lined upper (manyFrom rule tokens).2 := by
    fun_induction manyFrom rule tokens with
    | case1 tokens _ => exact fun lower lined => ⟨lower, .nil (Nat.le_refl _), lined⟩
    | case2 tokens value rest found _ values final more ih =>
        intro lower lined
        obtain ⟨middle, _, first, left⟩ := each lower tokens value rest found lined
        obtain ⟨upper, others, last⟩ := ih middle left
        rw [more] at others last
        exact ⟨upper, first.append others, last⟩
    | case3 tokens _ _ _ _ => exact fun lower lined => ⟨lower, .nil (Nat.le_refl _), lined⟩
  intro tokens values rest read lined
  obtain ⟨upper, rising, last⟩ := run tokens lower lined
  rw [Option.some.inj read] at rising last
  exact ⟨upper, rising.le, rising, last⟩

theorem many1 {rule : Rule β} (lines : β → List Nat)
    (each : ∀ lower, Spans lower rule (fun value upper => Rising lower upper (lines value)))
    (lower : Nat) :
    Spans lower (many1 rule) (fun values upper => Rising lower upper (values.flatMap lines)) := by
  refine (each lower).bind fun first middle _ here => ?_
  refine (many lines each middle).bind fun others upper _ there => ?_
  exact pure (here.append there)

end Spans

/-- A rule that reads a keyword first. -/
def StartsWithKeyword {α : Type} (rule : Rule α) : Prop :=
  ∀ tokens value rest, rule.run tokens = some (value, rest) →
    ∃ line text after, tokens = .keyword line text :: after

namespace StartsWithKeyword

theorem bind {α : Type} (text : String) (following : Unit → Rule α) :
    StartsWithKeyword (keyword text >>= following) := by
  intro tokens value rest read
  obtain ⟨here, left, began, _⟩ := exists_of_run_bind read
  obtain ⟨line, found, rfl⟩ := exists_of_run_keyword began
  exact ⟨line, found, left, rfl⟩

theorem orElse {α : Type} {first second : Rule α} (left : StartsWithKeyword first)
    (right : StartsWithKeyword second) : StartsWithKeyword (first <|> second) := by
  intro tokens value rest read
  rcases run_orElse read with here | there
  · exact left tokens value rest here
  · exact right tokens value rest there

end StartsWithKeyword

/-- The line of a rule that starts with a keyword is the line of the keyword, so the tokens may
be taken to start there. -/
theorem Spans.line {α : Type} {following : Nat → Rule α} {relates : α → Nat → Prop} {lower : Nat}
    (starts : ∀ start, StartsWithKeyword (following start))
    (second : ∀ start, lower ≤ start → Spans start (following start) relates) :
    Spans lower (line >>= following) relates := by
  intro tokens value rest read lined
  obtain ⟨start, left, began, went⟩ := exists_of_run_bind read
  cases began
  obtain ⟨start, text, after, rfl⟩ := starts _ _ _ _ went
  obtain ⟨upper, le, related, last⟩ := second start lined.1 _ value rest went
    ⟨Nat.le_refl _, lined.2⟩
  exact ⟨upper, Nat.le_trans lined.1 le, related, last⟩

/-! ## Simple statements -/

section Statements

variable {deeper : Deeper} {pattern : Rule Pattern} {statements : Rule (List Stmt)}

/-- The lines of the definitions of a statement that a rule reads rise. -/
def RisingStmt (rule : Rule Stmt) : Prop :=
  ∀ lower, Spans lower rule (fun statement upper => Rising lower upper (definedIn statement))

/-- The lines of the definitions of the statements that a rule reads rise. -/
def RisingBody (rule : Rule (List Stmt)) : Prop :=
  ∀ lower, Spans lower rule (fun body upper => Rising lower upper (definedInBody body))

theorem rising_importModules : RisingStmt importModules :=
  fun _ => .read fun _ => .read fun _ => .pure (.nil (Nat.le_refl _))

theorem rising_importFrom : RisingStmt importFrom :=
  fun _ => .read fun _ => .read fun _ => .read fun _ => .read fun _ => .read fun _ =>
    .read fun _ => .pure (.nil (Nat.le_refl _))

theorem rising_keywordStatement : RisingStmt (keywordStatement deeper) := by
  intro lower
  have empty : Rising lower lower [] := .nil (Nat.le_refl _)
  refine .orElse (.read fun _ => .pure empty) (.orElse (.read fun _ => .read fun _ => .pure empty)
    (.orElse (.read fun _ => .read fun raised => ?_) (.orElse
      (.read fun _ => .read fun _ => .pure empty) (.orElse
        (.read fun _ => .read fun _ => .read fun _ => .pure empty)
        (.read fun _ => .read fun _ => .read fun _ => .pure empty)))))
  cases raised with
  | none => exact .pure empty
  | some raised => exact .read fun _ => .pure empty

theorem rising_expressionStatement : RisingStmt (expressionStatement deeper) := by
  intro lower
  have empty : Rising lower lower [] := .nil (Nat.le_refl _)
  exact .read fun first => .orElse
    (.read fun _ => .read fun _ => .read fun _ => .read fun _ => .pure empty) (.orElse
      (.read fun _ => .read fun _ => .read fun _ => .pure empty) (.orElse
        (.read fun _ => .read fun _ => .pure empty) (.pure empty)))

theorem rising_simpleStatement : RisingStmt (simpleStatement deeper) := fun lower =>
  .orElse (rising_importModules lower) (.orElse (rising_importFrom lower)
    (.orElse (rising_keywordStatement lower) (rising_expressionStatement lower)))

/-- A body that a rule reads takes up at least the rest of a line, and the lines of its
definitions rise. -/
def RisingSuite (rule : Rule (List Stmt)) : Prop :=
  ∀ lower, Spans lower rule
    (fun body upper => Rising lower upper (definedInBody body) ∧ lower < upper)

theorem rising_simpleStatements : RisingSuite (simpleStatements deeper) := by
  intro lower
  refine (rising_simpleStatement lower).bind fun first middle _ here => ?_
  refine (Spans.many definedIn (fun _ => .read fun _ => rising_simpleStatement _) middle).bind
    fun others upper _ there => ?_
  refine .read fun _ => .newline (.pure ⟨?_, ?_⟩)
  · rw [definedInBody, definedInBody_eq_flatMap]
    exact (here.append there).mono (Nat.le_refl _) (Nat.le_succ _)
  · exact Nat.lt_succ_of_le (here.append there).le

/-! ## Compound statements -/

variable (inner : RisingBody statements)
include inner

theorem rising_block : RisingSuite (block deeper statements) := by
  intro lower
  refine .orElse (.newline (.read fun _ => ?_)) (rising_simpleStatements lower)
  refine (inner (lower + 1)).bind fun body upper le rising => ?_
  exact .read fun _ => .pure ⟨rising.mono (Nat.le_succ _) (Nat.le_refl _), le⟩

theorem rising_suite : RisingSuite (suite deeper statements) :=
  fun lower => .read fun _ => rising_block inner lower

/-- A body after a keyword may be left out. -/
theorem rising_suiteAfter (word : String) : RisingBody (do
    if ← atKeyword word then
      keyword word
      suite deeper statements
    else pure []) := by
  intro lower
  refine .read fun present => ?_
  split
  · exact .read fun _ => (rising_suite inner lower).mono fun _ _ _ rising => rising.1
  · exact .pure (.nil (Nat.le_refl _))

theorem rising_elseSuite : RisingBody (elseSuite deeper statements) :=
  rising_suiteAfter inner "else"

theorem rising_finalSuite : RisingBody (finalSuite deeper statements) :=
  rising_suiteAfter inner "finally"

theorem rising_ifStatement : RisingStmt (ifStatement deeper statements) := by
  intro lower
  refine .read fun _ => .read fun test => ?_
  refine (rising_suite inner lower).bind fun body middle _ here => ?_
  refine (Spans.many (fun other => definedInBody other.2) (fun start => ?_) middle).bind
    fun others upper _ there => ?_
  · refine .read fun _ => .read fun condition => ?_
    refine (rising_suite inner start).bind fun other upper _ rising => ?_
    exact .pure rising.1
  refine (rising_elseSuite inner upper).bind fun last final _ rest => ?_
  refine .pure ?_
  rw [definedIn, definedInBody_foldr]
  exact here.1.append (there.append rest)

theorem rising_whileStatement : RisingStmt (whileStatement deeper statements) := by
  intro lower
  refine .read fun _ => .read fun test => ?_
  refine (rising_suite inner lower).bind fun body middle _ here => ?_
  refine (rising_elseSuite inner middle).bind fun last upper _ rest => ?_
  exact .pure (here.1.append rest)

theorem rising_forStatement : RisingStmt (forStatement deeper statements) := by
  intro lower
  refine .read fun _ => .read fun target => .read fun _ => .read fun iterated => ?_
  refine (rising_suite inner lower).bind fun body middle _ here => ?_
  refine (rising_elseSuite inner middle).bind fun last upper _ rest => ?_
  exact .pure (here.1.append rest)

theorem rising_withStatement : RisingStmt (withStatement deeper statements) := by
  intro lower
  refine .read fun _ => .read fun items => ?_
  refine (rising_block inner lower).bind fun body upper _ here => ?_
  exact .pure here.1

theorem rising_handler (star : Bool) (lower : Nat) :
    Spans lower (handler deeper statements star)
      (fun clause upper => Rising lower upper (definedInBody clause.body)) := by
  have ending (type : Option Expr) : Spans lower
      (do pure (⟨type, ← suite deeper statements⟩ : Handler Stmt))
      (fun clause upper => Rising lower upper (definedInBody clause.body)) := by
    refine (rising_suite inner lower).bind fun body upper _ here => ?_
    exact .pure here.1
  have named (type : Option Expr) : Spans lower
      (do
        let _ ← if type.isSome then asName else pure none
        pure (⟨type, ← suite deeper statements⟩ : Handler Stmt))
      (fun clause upper => Rising lower upper (definedInBody clause.body)) := by
    split
    · exact .read fun _ => ending type
    · exact .read fun _ => ending type
  refine .read fun _ => ?_
  cases star with
  | true => exact .read fun _ => .read fun type => named type
  | false => exact .read fun type => named type

theorem rising_tryStatement : RisingStmt (tryStatement deeper statements) := by
  intro lower
  refine .read fun _ => ?_
  refine (rising_suite inner lower).bind fun body middle _ here => ?_
  refine .read fun ended => ?_
  split
  · refine (rising_finalSuite inner middle).bind fun last upper _ rest => ?_
    exact .pure (here.1.append rest)
  · refine .read fun star => ?_
    refine (Spans.many1 (fun clause => definedInBody clause.body) (rising_handler inner star)
      middle).bind fun handlers next _ handled => ?_
    refine (rising_elseSuite inner next).bind fun orelse after _ otherwise => ?_
    refine (rising_finalSuite inner after).bind fun last upper _ rest => ?_
    refine .pure ?_
    rw [definedIn, definedInHandlers_eq_flatMap]
    exact here.1.append (handled.append (otherwise.append rest))

theorem rising_matchCase (lower : Nat) :
    Spans lower (matchCase deeper pattern statements)
      (fun clause upper => Rising lower upper (definedInBody clause.body)) := by
  refine .read fun _ => .read fun shape => .read fun guard => ?_
  refine (rising_suite inner lower).bind fun body upper _ here => ?_
  exact .pure here.1

theorem rising_matchBody (subject : Expr) :
    RisingStmt (matchBody deeper pattern statements subject) := by
  intro lower
  refine .read fun _ => ?_
  refine (Spans.many1 (fun clause => definedInBody clause.body) (rising_matchCase inner)
    lower).bind fun cases upper _ here => ?_
  refine .read fun _ => .pure ?_
  rw [definedIn, definedInCases_eq_flatMap]
  exact here

/-- A function definition defines itself only, and its body takes up at least a line. -/
theorem spans_functionStatement (start : Nat) (decorators : List Expr) (lower : Nat) :
    Spans lower (functionStatement deeper statements start decorators)
      (fun statement upper => definedIn statement = [start] ∧ lower < upper) := by
  refine .read fun _ => .read fun id => .read fun _ => .read fun parameters => .read fun _ =>
    .read fun returns => ?_
  refine (rising_suite inner lower).bind fun body upper _ here => ?_
  exact .pure ⟨rfl, here.2⟩

theorem rising_classStatement (start : Nat) (decorators : List Expr) :
    RisingStmt (classStatement deeper statements start decorators) := by
  intro lower
  have ending (id : String) (given : List Expr × List Expr) : Spans lower
      (do
        let body ← suite deeper statements
        pure (.classDef ⟨start, id, given.1, given.2, body, decorators⟩))
      (fun statement upper => Rising lower upper (definedIn statement)) := by
    refine (rising_suite inner lower).bind fun body upper _ here => ?_
    exact .pure here.1
  refine .read fun _ => .read fun id => .read fun opened => ?_
  split
  · exact .read fun given => ending id given
  · exact .read fun given => ending id given

theorem rising_definition : RisingStmt (definition deeper statements) := by
  intro lower
  refine .read fun decorators => ?_
  refine .line (fun start => ?_) fun start above => ?_
  · exact .orElse (.bind _ _) (.orElse (.bind _ _) (.bind _ _))
  · have function : Spans start (functionStatement deeper statements start decorators)
        (fun statement upper => Rising lower upper (definedIn statement)) := by
      refine (spans_functionStatement inner start decorators start).mono
        fun found upper _ here => ?_
      rw [here.1]
      exact .single above here.2
    refine .orElse ?_ (.orElse function (.read fun _ => function))
    exact (rising_classStatement inner start decorators start).mono
      fun _ _ _ rising => rising.mono above (Nat.le_refl _)

theorem rising_compoundStatement : RisingStmt (compoundStatement deeper statements) := fun lower =>
  .orElse (rising_ifStatement inner lower) (.orElse (rising_whileStatement inner lower)
    (.orElse (rising_forStatement inner lower) (.orElse (rising_withStatement inner lower)
      (.orElse (rising_tryStatement inner lower) (.orElse (.read fun _ =>
          .orElse (rising_forStatement inner lower) (rising_withStatement inner lower))
        (rising_definition inner lower))))))

theorem rising_statement : RisingBody (statement deeper pattern statements) := by
  have alone (found : Stmt) : definedInBody [found] = definedIn found := List.append_nil _
  intro lower
  refine .read fun opened => ?_
  cases opened with
  | some subject =>
      refine (rising_matchBody inner subject lower).bind fun found upper _ here => ?_
      exact .pure (alone found ▸ here)
  | none =>
      refine .orElse ?_ ((rising_simpleStatements lower).mono fun _ _ _ rising => rising.1)
      refine (rising_compoundStatement inner lower).bind fun found upper _ here => ?_
      exact .pure (alone found ▸ here)

end Statements

/-- The statements of a body nest no deeper than the depth supplied. -/
theorem rising_statementsAt (deeper : Deeper) (pattern : Rule Pattern) (depth : Nat) :
    RisingBody (statementsAt deeper pattern depth) := by
  induction depth with
  | zero => exact fun _ => .failure
  | succ depth ih =>
      intro lower
      refine (Spans.many1 definedInBody (rising_statement ih) lower).bind
        fun found upper _ here => ?_
      exact .pure (definedInBody_flatten found ▸ here)

theorem rising_wholeText {deeper : Deeper} {pattern : Rule Pattern}
    {statements : Rule (List Stmt)} (inner : RisingBody statements) :
    RisingBody (wholeText deeper pattern statements) := by
  intro lower
  refine (Spans.many definedInBody (rising_statement inner) lower).bind fun found upper _ here => ?_
  exact .read fun _ => .pure (definedInBody_flatten found ▸ here)

end Grammar

/-- **The definitions of a text stand on rising lines.** Whatever source is read, the functions
that its statements define for their scopes start on lines that rise strictly in the order of
the text. -/
theorem definedInBody_rising {bytes : Bytes} {statements : List Stmt}
    (read : readBytes? bytes = some statements) :
    (definedInBody statements).Pairwise (· < ·) := by
  obtain ⟨chars, _, scanned⟩ := Option.bind_eq_some_iff.mp read
  obtain ⟨tokens, found, parsed⟩ := Option.bind_eq_some_iff.mp scanned
  obtain ⟨⟨body, rest⟩, ran, same⟩ := Option.bind_eq_some_iff.mp parsed
  cases same
  have inner := Grammar.rising_statementsAt (Grammar.expressionAt (chars.length + 8))
    (Grammar.patternAt (Grammar.expressionAt (chars.length + 8)) (chars.length + 8))
    (chars.length + 8)
  obtain ⟨upper, _, rising, _⟩ := Grammar.rising_wholeText inner 1 tokens statements rest ran
    (Lexer.scan?_lined found)
  exact rising.rising

end CyclicCalls.Source
