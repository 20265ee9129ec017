import CyclicCalls.Source.Lexer
/-!
# The lines of tokens

The tokens of a text stand on lines that never go back, and what follows the end of a line
stands on a later one. `Lined` says so of a token list and the first line on which it may
start. It holds of the end of a list as it holds of the whole (`Lined.of_suffix`), which is all
that reading tokens does.

The scanner keeps the line it is on in its state. One step of it finds tokens that lead from
its line to the line of the next state (`step?_leads`), so the tokens found from a state on are
lined from its line (`tokensFrom?_lined`), and those of a whole text from the line that the text
starts on (`scan?_lined`).
-/

set_option autoImplicit false

namespace CyclicCalls.Source

/-! ## Lined tokens -/

/-- The first line on which a token can follow a given one, which itself may start on the given
line. -/
def Token.onward (lower : Nat) : Token → Nat
  | .newline => lower + 1
  | .indent => lower
  | .dedent => lower
  | .stop => lower
  | token => token.line

/-- The lines of the tokens, from the given one on, never go back, and rise at the end of a
line. -/
def Lined : Nat → List Token → Prop
  | _, [] => True
  | lower, token :: rest => lower ≤ token.onward lower ∧ Lined (token.onward lower) rest

theorem Token.onward_mono {lower upper : Nat} (below : lower ≤ upper) (token : Token) :
    token.onward lower ≤ token.onward upper := by
  cases token <;> simp only [Token.onward] <;> omega

theorem Token.le_onward_of_le {lower upper : Nat} (below : lower ≤ upper) {token : Token}
    (rises : upper ≤ token.onward upper) : lower ≤ token.onward lower := by
  cases token <;> simp only [Token.onward] at rises ⊢ <;> omega

/-- The tokens may also start on an earlier line. -/
theorem Lined.mono {lower upper : Nat} {tokens : List Token} (lined : Lined upper tokens)
    (below : lower ≤ upper) : Lined lower tokens := by
  induction tokens generalizing lower upper with
  | nil => trivial
  | cons token rest ih =>
      exact ⟨Token.le_onward_of_le below lined.1, ih lined.2 (Token.onward_mono below token)⟩

/-- What is left after reading tokens is lined as before. -/
theorem Lined.of_suffix {lower : Nat} {tokens rest : List Token} (lined : Lined lower tokens)
    (left : rest <:+ tokens) : Lined lower rest := by
  induction tokens generalizing lower with
  | nil =>
      rw [List.suffix_nil.mp left]
      trivial
  | cons token tail ih =>
      rcases List.suffix_cons_iff.mp left with rfl | later
      · exact lined
      · exact (ih lined.2 later).mono lined.1

/-- The tokens lead from one line to another: before tokens from the second line on they make
tokens from the first line on. -/
def Leading (lower : Nat) (tokens : List Token) (upper : Nat) : Prop :=
  ∀ rest, Lined upper rest → Lined lower (tokens ++ rest)

namespace Leading

theorem nil {lower upper : Nat} (below : lower ≤ upper) : Leading lower [] upper :=
  fun _ lined => lined.mono below

theorem append {lower middle upper : Nat} {first second : List Token}
    (left : Leading lower first middle) (right : Leading middle second upper) :
    Leading lower (first ++ second) upper := by
  intro rest lined
  rw [List.append_assoc]
  exact left _ (right rest lined)

/-- A token on the line itself. -/
theorem single {lower upper : Nat} {token : Token} (here : token.onward lower ≤ upper)
    (rises : lower ≤ token.onward lower) : Leading lower [token] upper :=
  fun _ lined => ⟨rises, lined.mono here⟩

/-- The ends of blocks have no lines. -/
theorem dedents {lower : Nat} {tokens : List Token} (ends : ∀ token ∈ tokens, token = .dedent) :
    Leading lower tokens lower := by
  induction tokens with
  | nil => exact nil (Nat.le_refl _)
  | cons token rest ih =>
      obtain ⟨rfl, later⟩ := List.forall_mem_cons.mp ends
      exact (single (Nat.le_refl _) (Nat.le_refl _)).append (ih later)

end Leading

/-! ## The scanner -/

namespace Lexer

theorem outdent_dedents (column : Nat) (indents : List (Nat × Nat)) :
    ∀ token ∈ (outdent column indents).1, token = .dedent := by
  induction indents with
  | nil => exact fun _ member => nomatch member
  | cons indent outer ih =>
      unfold outdent
      split
      · exact List.forall_mem_cons.mpr ⟨rfl, ih⟩
      · exact fun _ member => nomatch member

/-- The tokens of an indentation have no lines. -/
theorem indentation?_leads {indents others : List (Nat × Nat)} {measures : Nat × Nat}
    {tokens : List Token} (found : indentation? indents measures = some (tokens, others))
    (lower : Nat) : Leading lower tokens lower := by
  unfold indentation? at found
  split at found
  · split at found
    · cases found
      exact .single (Nat.le_refl _) (Nat.le_refl _)
    · exact nomatch found
  · dsimp only at found
    split at found
    · cases found
      exact .dedents (outdent_dedents _ _)
    · exact nomatch found

theorem mark?_leads {state next : State} {chars tail : List Char} {tokens : List Token}
    (found : mark? state chars = some (tokens, next, tail)) :
    Leading state.line tokens next.line := by
  simp only [mark?, Option.bind_eq_bind, Option.bind_eq_some_iff, Option.pure_def,
    Option.some.injEq, Prod.mk.injEq] at found
  obtain ⟨text, _, brackets, _, rfl, rfl, rfl⟩ := found
  exact .single (Nat.le_refl _) (Nat.le_refl _)

theorem ofWord_onward (lower line : Nat) (word : String) :
    (Token.ofWord line word).onward lower = line := by
  unfold Token.ofWord
  split <;> rfl

theorem word?_leads {state next : State} {chars tail : List Char} {tokens : List Token}
    (found : word? state chars = some (tokens, next, tail)) :
    Leading state.line tokens next.line := by
  unfold word? at found
  dsimp only at found
  split at found
  · cases found
    exact .single (Nat.le_of_eq (ofWord_onward _ _ _)) (Nat.le_of_eq (ofWord_onward _ _ _).symm)
  · exact nomatch found

theorem number?_leads {state next : State} {chars tail : List Char} {tokens : List Token}
    (found : number? state chars = some (tokens, next, tail)) :
    Leading state.line tokens next.line := by
  simp only [number?, Option.bind_eq_bind, Option.bind_eq_some_iff, Option.pure_def,
    Option.some.injEq, Prod.mk.injEq] at found
  obtain ⟨result, _, rfl, rfl, rfl⟩ := found
  exact .single (Nat.le_refl _) (Nat.le_refl _)

theorem literal?_leads {scanField : Field.Slot → Option (List Token)} {state next : State}
    {style : Literal.Style} {quote : Char} {chars tail : List Char} {tokens : List Token}
    (found : literal? scanField state style quote chars = some (tokens, next, tail)) :
    Leading state.line tokens next.line := by
  simp only [literal?, Option.bind_eq_bind, Option.bind_eq_some_iff] at found
  obtain ⟨⟨body, rest⟩, _, found⟩ := found
  split at found
  · simp only [Option.bind_eq_some_iff] at found
    obtain ⟨slots, _, fields, _, ends⟩ := found
    cases ends
    exact .single (Nat.le_add_right _ _) (Nat.le_refl _)
  · split at found
    · cases found
      exact .single (Nat.le_add_right _ _) (Nat.le_refl _)
    · exact nomatch found

theorem lineEnd_leads (state : State) (rest : List Char) :
    Leading state.line (lineEnd state rest).1 (lineEnd state rest).2.1.line := by
  unfold lineEnd
  dsimp only
  split
  · exact .single (Nat.le_refl _) (Nat.le_succ _)
  · exact .nil (Nat.le_succ _)

/-- The next token leads from the line of the scanner to its next line. -/
theorem token?_leads {scanField : Field.Slot → Option (List Token)} {state next : State}
    {chars tail : List Char} {tokens : List Token}
    (found : token? scanField state chars = some (tokens, next, tail)) :
    Leading state.line tokens next.line := by
  unfold token? at found
  split at found
  · cases found
    exact .nil (Nat.le_refl _)
  · cases found
    exact lineEnd_leads state []
  · split at found
    · cases found
      exact .nil (Nat.le_succ _)
    · exact nomatch found
  · split at found
    · exact literal?_leads found
    · split at found
      · exact word?_leads found
      · split at found
        · exact number?_leads found
        · exact mark?_leads found

/-- One step of the scanner leads from its line to its next line. -/
theorem step?_leads {scanField : Field.Slot → Option (List Token)} {state next : State}
    {chars tail : List Char} {tokens : List Token}
    (found : step? scanField state chars = some (tokens, next, tail)) :
    Leading state.line tokens next.line := by
  unfold step? at found
  split at found
  · simp only [Option.bind_eq_bind, Option.bind_eq_some_iff] at found
    obtain ⟨⟨measures, rest, joined⟩, _, found⟩ := found
    have later : state.line ≤ state.line + joined := Nat.le_add_right _ _
    split at found
    · cases found
      exact .nil (Nat.le_succ_of_le later)
    · split at found
      · obtain ⟨⟨indentation, indents⟩, indented, found⟩ := Option.bind_eq_some_iff.mp found
        obtain ⟨⟨more, after, last⟩, scanned, ends⟩ := Option.bind_eq_some_iff.mp found
        cases ends
        exact (Leading.nil later).append
          ((indentation?_leads indented _).append (token?_leads scanned))
      · exact (Leading.nil later).append (token?_leads found)
  · exact token?_leads found

/-- The tokens from a state on are lined from its line on. -/
theorem tokensFrom?_lined {scanField : Field.Slot → Option (List Token)} {state : State}
    {chars : List Char} {tokens : List Token}
    (found : tokensFrom? scanField state chars = some tokens) : Lined state.line tokens := by
  fun_induction tokensFrom? scanField state chars generalizing tokens with
  | case1 state closed =>
      cases found
      have blocks : ∀ token ∈ state.indents.map (fun _ => Token.dedent), token = .dedent := by
        intro token member
        obtain ⟨_, _, rfl⟩ := List.mem_map.mp member
        rfl
      exact Leading.dedents blocks _ ⟨Nat.le_refl _, trivial⟩
  | case2 state opened => exact nomatch found
  | case3 state c rest failed => exact nomatch found
  | case4 state c rest first next tail stepped shorter ih =>
      obtain ⟨others, later, rfl⟩ := Option.map_eq_some_iff.mp found
      exact step?_leads stepped others (ih later)
  | case5 state c rest first next tail stepped longer => exact nomatch found

/-- The tokens of a text are lined from the line on which it starts. -/
theorem scan?_lined {line : Nat} {chars : List Char} {tokens : List Token}
    (found : scan? line chars = some tokens) : Lined line tokens := by
  rw [scan?] at found
  exact tokensFrom?_lined found

end Lexer

end CyclicCalls.Source
