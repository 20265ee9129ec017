import CyclicCalls.Proofs.SeparatedText
import CyclicCalls.Report
/-!
# Methods of a chain

A chain is written as the qualified names of its methods with arrows between them, and the
structured report takes it apart at the arrows again. It finds the names that were put in if no
name holds an arrow and no name ends like an arrow that lacks its last blank (`Separable`). The
second condition is there because an arrow ends with the character that it starts with. Such an
end of a name and the first blank of the arrow after it make up an arrow that comes three
characters too early, and this is the only way in which an arrow can lie across the end of a name
(`unbroken_arrow_iff`).

The last name of a chain is not followed by an arrow, so it may end in any way. With this the
conditions are exact (`split_chainOf_iff`).

Main statement: `chains_split_into_methods`.
-/

set_option autoImplicit false

namespace CyclicCalls

/-! ## Arrows across the end of a name -/

/-- No arrow is in the name, and the name does not end like an arrow without its last blank. -/
structure Separable (name : String) : Prop where
  holdsNoArrow : ¬ " -> ".toList <:+: name.toList
  endsInNoArrow : ¬ " ->".toList <:+ name.toList

/-- A text ends in an arrow if it ends in a blank and what is before the blank ends like an arrow
without it. -/
theorem arrow_suffix_concat_iff (text : List Char) (last : Char) :
    " -> ".toList <:+ text ++ [last] ↔ " ->".toList <:+ text ∧ last = ' ' := by
  have level : [' '].length = [last].length := rfl
  rw [show " -> ".toList = " ->".toList ++ [' '] from rfl,
    List.suffix_append_inj_of_length_eq level]
  simp [eq_comm]

/-- The arrow after a name is the first one if the name holds no arrow and does not end like an
arrow without its last blank. -/
theorem unbroken_arrow_iff (name : List Char) :
    Text.Unbroken " -> ".toList name ↔
      ¬ " -> ".toList <:+: name ∧ ¬ " ->".toList <:+ name := by
  have spelled : name ++ " -> ".toList.dropLast = name ++ [' '] ++ ['-'] ++ ['>'] := by simp
  have dash : '-' ≠ ' ' := by decide
  have tip : '>' ≠ ' ' := by decide
  -- An early arrow ends in the name or with one of three characters, of which one is a blank.
  rw [Text.unbroken_iff (by decide), spelled]
  simp only [List.infix_concat_iff, arrow_suffix_concat_iff, dash, tip, and_false, and_true,
    false_or, not_or]
  exact and_comm

/-! ## Chains -/

/-- **When the names of a chain are found again.** No name holds an arrow, and only the last name
may end like an arrow without its last blank. -/
theorem split_chainOf_iff {methods : List Symbol} (nonempty : methods ≠ []) :
    Text.split " -> " (chainOf methods) = methods.map Symbol.qualifiedName ↔
      (∀ method ∈ methods, ¬ " -> ".toList <:+: method.qualifiedName.toList) ∧
        ∀ method ∈ methods.dropLast, ¬ " ->".toList <:+ method.qualifiedName.toList := by
  have named : methods.map Symbol.qualifiedName ≠ [] := by simpa using nonempty
  rw [chainOf, chainSeparator, Text.split_join_iff (by decide) named, ← List.map_dropLast]
  simp only [List.forall_mem_map, unbroken_arrow_iff]
  constructor
  · rintro ⟨absent, unbroken⟩
    exact ⟨absent, fun method member => (unbroken method member).2⟩
  · rintro ⟨absent, ends⟩
    refine ⟨absent, ?_⟩
    intro method member
    exact ⟨absent method (List.mem_of_mem_dropLast member), ends method member⟩

theorem split_chainOf {methods : List Symbol} (nonempty : methods ≠ [])
    (separable : ∀ method ∈ methods, Separable method.qualifiedName) :
    Text.split " -> " (chainOf methods) = methods.map Symbol.qualifiedName := by
  rw [split_chainOf_iff nonempty]
  constructor
  · intro method member
    exact (separable method member).holdsNoArrow
  · intro method member
    exact (separable method (List.mem_of_mem_dropLast member)).endsInNoArrow

/-- The dot of a qualified name keeps a chain with methods from being empty. -/
theorem chainOf_eq_empty_iff {methods : List Symbol} : chainOf methods = "" ↔ methods = [] := by
  constructor
  · intro empty
    cases methods with
    | nil => rfl
    | cons method methods =>
        cases methods with
        | nil => simp [chainOf, Text.join, Symbol.qualifiedName, MethodKey.qualifiedName] at empty
        | cons next methods => simp [chainOf, Text.join, chainSeparator] at empty
  · rintro rfl
    rfl

/-- **Chains tell their names.** -/
theorem names_eq_of_chainOf_eq {methods others : List Symbol}
    (separable : ∀ method ∈ methods, Separable method.qualifiedName)
    (separableToo : ∀ method ∈ others, Separable method.qualifiedName)
    (same : chainOf others = chainOf methods) :
    others.map Symbol.qualifiedName = methods.map Symbol.qualifiedName := by
  by_cases given : methods = []
  · subst given
    rw [chainOf_eq_empty_iff.mp same]
  · have givenToo : others ≠ [] := by
      rintro rfl
      exact given (chainOf_eq_empty_iff.mp same.symm)
    calc others.map Symbol.qualifiedName
        = Text.split " -> " (chainOf others) := (split_chainOf givenToo separableToo).symm
      _ = Text.split " -> " (chainOf methods) := congrArg _ same
      _ = methods.map Symbol.qualifiedName := split_chainOf given separable

/-- **A chain can be split back into its methods.** If no name holds an arrow or ends like an
arrow without its last blank, splitting a chain at the arrows gives the names of its methods in
order, and these are the methods that the structured report shows beside the chain. So two lists
of methods with such names have the same chain only if they have the same names in the same
order. -/
theorem chains_split_into_methods {methods : List Symbol} (nonempty : methods ≠ [])
    (separable : ∀ method ∈ methods, Separable method.qualifiedName) :
    Text.split " -> " (chainOf methods) = methods.map Symbol.qualifiedName ∧
    Report.chainValue (chainOf methods) = .object
      [("chain", .text (chainOf methods)),
       ("methods", .array (methods.map (fun method => .text method.qualifiedName)))] ∧
    ∀ others : List Symbol, (∀ method ∈ others, Separable method.qualifiedName) →
      chainOf others = chainOf methods →
        others.map Symbol.qualifiedName = methods.map Symbol.qualifiedName := by
  have parts := split_chainOf nonempty separable
  refine ⟨parts, ?_, ?_⟩
  · rw [Report.chainValue, chainSeparator, parts, List.map_map]
    rfl
  · intro others separableToo same
    exact names_eq_of_chainOf_eq separable separableToo same

/-- A cycle of two methods whose names have parts of an arrow at both ends. -/
def arrowLikeCycle : List Symbol :=
  [⟨0, "app", "app", "load -"⟩, ⟨1, "lib", "-> lib", "read"⟩, ⟨0, "app", "app", "load -"⟩]

/-- Parts of an arrow at the ends of the names do no harm. -/
theorem chains_split_into_methods_arrowLike :
    arrowLikeCycle ≠ [] ∧ (∀ method ∈ arrowLikeCycle, Separable method.qualifiedName) ∧
    chainOf arrowLikeCycle = "app.load - -> -> lib.read -> app.load -" ∧
    Text.split " -> " (chainOf arrowLikeCycle) = ["app.load -", "-> lib.read", "app.load -"] := by
  have nonempty : arrowLikeCycle ≠ [] := List.cons_ne_nil _ _
  have separable : ∀ method ∈ arrowLikeCycle, Separable method.qualifiedName := by
    have load : Separable "app.load -" := ⟨by decide, by decide⟩
    have read : Separable "-> lib.read" := ⟨by decide, by decide⟩
    simp [arrowLikeCycle, Symbol.qualifiedName, MethodKey.qualifiedName, load, read]
  exact ⟨nonempty, separable, rfl, (chains_split_into_methods nonempty separable).1⟩

-- A name that lacks only the blank of an arrow makes two cycles look the same.
example : chainOf [⟨0, "app", "app", "load ->"⟩, ⟨1, "lib", "lib", "read"⟩] =
    chainOf [⟨0, "app", "app", "load"⟩, ⟨1, "lib", "-> lib", "read"⟩] := by
  decide

end CyclicCalls
