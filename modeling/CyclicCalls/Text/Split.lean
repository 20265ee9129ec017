/-!
# Splitting and joining text

A text is split at the leftmost occurrences of a separator that do not overlap,
so that joining the pieces with the separator gives the text back. The empty
text has one piece, the empty one.

Joining is the other direction: the pieces in order, with the separator between
neighbours.
-/

set_option autoImplicit false

namespace CyclicCalls.Text

/-- What follows `lead` in `chars`, when `chars` starts with `lead`. -/
def after? : List Char → List Char → Option (List Char)
  | [], chars => some chars
  | _ :: _, [] => none
  | a :: lead, c :: chars => if a = c then after? lead chars else none

/-- Put a character in front of the first piece. -/
def consFirst (c : Char) : List (List Char) → List (List Char)
  | [] => [[c]]
  | piece :: pieces => (c :: piece) :: pieces

/-- The pieces of `chars` between the leftmost occurrences of `separator`. -/
def pieces (separator : List Char) (chars : List Char) : List (List Char) :=
  match chars with
  | [] => [[]]
  | c :: rest =>
    match after? separator (c :: rest) with
    | some tail =>
      if tail.length < (c :: rest).length then [] :: pieces separator tail
      else consFirst c (pieces separator rest)
    | none => consFirst c (pieces separator rest)
termination_by chars.length
decreasing_by
  · assumption
  · exact Nat.lt_succ_self _
  · exact Nat.lt_succ_self _

/-- The pieces of a text between the leftmost occurrences of `separator`. -/
def split (separator text : String) : List String :=
  (pieces separator.toList text.toList).map String.ofList

/-- The pieces in order with `separator` between neighbours. -/
def join (separator : String) : List String → String
  | [] => ""
  | [piece] => piece
  | piece :: rest => piece ++ separator ++ join separator rest

/-- Whether `text` starts with `lead`, as plain characters. -/
def startsWith (lead text : String) : Bool :=
  lead.toList.isPrefixOf text.toList

/-- Whether `text` ends with `tail`, as plain characters. -/
def endsWith (tail text : String) : Bool :=
  tail.toList.isSuffixOf text.toList

/-- The order of texts by code points. -/
def le (a b : String) : Bool :=
  decide (a ≤ b)

end CyclicCalls.Text
