import CyclicCalls.Proofs.SeparatedText
import CyclicCalls.Proofs.StructuredText
import CyclicCalls.Report
/-!
# Contents of reports

Both forms of a report carry the chains. The structured report is ASCII text, and a JSON reader
finds in it the chains in order, each with its methods, and their number. The methods of a chain
are its pieces between the leftmost arrows. This holds for all chains, whatever their characters.

In the plain report a chain stands on a line of its own after a tab (`plainChains`). So it can be
read back if no chain breaks a line, and then the report determines the chains. With line breaks
it does not: a chain with a heading inside is shown like two chains.

Main statement: `reports_carry_chains`.
-/

set_option autoImplicit false

namespace CyclicCalls.Report

open StandardJson

/-! ## The structured report -/

/-- The value of a chain with its methods. -/
def chainMeaning (chain : String) : Value :=
  .object [("chain", .text chain),
    ("methods", .array ((Text.split " -> " chain).map .text))]

theorem meaning_chainValue (chain : String) : meaning (chainValue chain) = chainMeaning chain := by
  simp [chainValue, chainMeaning, chainSeparator, meaning, fieldMeanings, meanings_eq,
    Function.comp_def]

theorem meaning_value (chains : List String) :
    meaning (value chains) =
      .object [("cycles", .array (chains.map chainMeaning)), ("count", .number chains.length)] := by
  simp [value, meaning, fieldMeanings, meanings_eq, Function.comp_def, meaning_chainValue]

/-! ## The plain report -/

/-- The chain on a line of a plain report, if there is one. -/
def lineChain? (line : String) : Option String :=
  match line.toList with
  | '\t' :: chain => some (String.ofList chain)
  | _ => none

/-- The chains of a plain report. -/
def plainChains (report : String) : List String :=
  (Text.split "\n" report).filterMap lineChain?

/-- The lines of a plain report. -/
def plainLines (chains : List String) : List String :=
  chains.flatMap (fun chain => ["Cycle detected:", "\t" ++ chain])

theorem filterMap_plainLines (chains : List String) :
    (plainLines chains).filterMap lineChain? = chains := by
  induction chains with
  | nil => rfl
  | cons chain chains ih =>
      have heading : lineChain? "Cycle detected:" = none := rfl
      have shown : lineChain? ("\t" ++ chain) = some chain := by
        simp [lineChain?]
      rw [plainLines, List.flatMap_cons, List.filterMap_append, ← plainLines, ih]
      simp [heading, shown]

/-- Lines without line ends are the lines of their text. -/
theorem split_text {chains : List String} (nonempty : chains ≠ [])
    (unbroken : ∀ chain ∈ chains, '\n' ∉ chain.toList) :
    Text.split "\n" (text chains) = plainLines chains := by
  apply Text.split_join
  · decide
  · cases chains with
    | nil => exact absurd rfl nonempty
    | cons chain chains => simp
  · intro line member
    rw [show "\n".toList = ['\n'] from rfl]
    apply Text.unbroken_of_notMem
    obtain ⟨chain, among, here⟩ := List.mem_flatMap.mp member
    simp only [List.mem_cons, List.not_mem_nil, or_false] at here
    rcases here with rfl | rfl
    · decide
    · simpa using unbroken chain among

/-- **The chains of a plain report are read back**, if no chain breaks a line. -/
theorem plainChains_text {chains : List String}
    (unbroken : ∀ chain ∈ chains, '\n' ∉ chain.toList) : plainChains (text chains) = chains := by
  by_cases given : chains = []
  · subst given
    decide +kernel
  · rw [plainChains, split_text given unbroken, filterMap_plainLines]

example : text ["app.load\nCycle detected:\n\tapp.save"] = text ["app.load", "app.save"] := by
  decide

/-! ## Both forms -/

/-- **Both forms of a report carry the chains.** The structured report is ASCII text that stands
for the chains with their methods and their number; the methods are the pieces between the
leftmost arrows. Among chains that break no line, the plain report determines them. -/
theorem reports_carry_chains (chains : List String) :
    (∀ c ∈ (render .json chains).toList, c.toNat < 128) ∧
    read? (render .json chains) = some (.object
      [("cycles", .array (chains.map (fun chain => .object
          [("chain", .text chain),
           ("methods", .array ((Text.split " -> " chain).map .text))]))),
       ("count", .number chains.length)]) ∧
    (∀ chain ∈ chains, Text.SplitsInto " -> ".toList chain.toList
      ((Text.split " -> " chain).map String.toList)) ∧
    ((∀ chain ∈ chains, '\n' ∉ chain.toList) →
      plainChains (render .text chains) = chains ∧
      ∀ others : List String, (∀ chain ∈ others, '\n' ∉ chain.toList) →
        render .text others = render .text chains → others = chains) := by
  refine ⟨ascii_write (value chains), ?_, ?_, ?_⟩
  · rw [render, read?_write, meaning_value]
    rfl
  · intro chain _
    exact (Text.split_eq_iff (by decide)).mp rfl
  · intro unbroken
    refine ⟨plainChains_text unbroken, ?_⟩
    intro others unbrokenToo same
    calc others = plainChains (render .text others) := (plainChains_text unbrokenToo).symm
      _ = plainChains (render .text chains) := congrArg plainChains same
      _ = chains := plainChains_text unbroken

/-- Chains with a quote, a character beyond the basic plane, a backslash, and arrows that
overlap. -/
def escapedChains : List String :=
  ["app.\"load\" -> app.😀", "lib\\read -> -> lib"]

/-- Escaped characters are read back, and the first of two overlapping arrows counts. -/
theorem reports_carry_chains_escaped :
    (∀ chain ∈ escapedChains, '\n' ∉ chain.toList) ∧
    plainChains (render .text escapedChains) = escapedChains ∧
    read? (render .json escapedChains) = some (.object
      [("cycles", .array
        [.object [("chain", .text "app.\"load\" -> app.😀"),
            ("methods", .array [.text "app.\"load\"", .text "app.😀"])],
         .object [("chain", .text "lib\\read -> -> lib"),
            ("methods", .array [.text "lib\\read", .text "-> lib"])]]),
       ("count", .number 2)]) := by
  obtain ⟨_, read, _, plain⟩ := reports_carry_chains escapedChains
  have unbroken : ∀ chain ∈ escapedChains, '\n' ∉ chain.toList := by decide
  have first : Text.split " -> " "app.\"load\" -> app.😀" = ["app.\"load\"", "app.😀"] := by
    decide +kernel
  have second : Text.split " -> " "lib\\read -> -> lib" = ["lib\\read", "-> lib"] := by
    decide +kernel
  refine ⟨unbroken, (plain unbroken).1, ?_⟩
  simpa [escapedChains, first, second] using read

end CyclicCalls.Report
