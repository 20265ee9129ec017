import CyclicCalls.Symbol
import CyclicCalls.Text.Split
/-!
# Trails and chains

A depth-first search keeps the methods it is inside of on a *trail*. Beside the
steps the trail keeps the set of the numbers on it, so that membership does not
scan the steps. The set forgets a number as soon as one step with that number is
taken back, also when an earlier step has the same number.

A cycle is closed when the search arrives at a method on the trail. Its methods
are the steps from that method on, closed by the method itself, and its *chain*
is their qualified names joined by arrows.
-/

set_option autoImplicit false

namespace CyclicCalls

/-- The methods a search is inside of, the latest first, and the numbers that
count as being among them. -/
structure Trail where
  steps : List Symbol := []
  members : List Nat := []
deriving DecidableEq, Repr

namespace Trail

/-- The steps from the root on. -/
def toList (trail : Trail) : List Symbol :=
  trail.steps.reverse

/-- Whether a method counts as being on the trail. -/
def holds (trail : Trail) (method : Symbol) : Bool :=
  trail.members.contains method.index

/-- Go one step further. -/
def push (trail : Trail) (method : Symbol) : Trail where
  steps := method :: trail.steps
  members := if trail.holds method then trail.members else method.index :: trail.members

/-- The latest step, and the trail without it. -/
def pop? (trail : Trail) : Option (Symbol × Trail) :=
  match trail.steps with
  | [] => none
  | method :: steps => some (method, ⟨steps, trail.members.filter (· != method.index)⟩)

/-- Take the latest step back, if there is one. -/
def drop (trail : Trail) : Trail :=
  match trail.pop? with
  | none => trail
  | some (_, rest) => rest

/-- Take back the given number of steps. -/
def dropMany (trail : Trail) : Nat → Trail
  | 0 => trail
  | count + 1 => trail.drop.dropMany count

/-- The steps from the first visit of a method on, closed by the method. -/
def closedBy (trail : Trail) (method : Symbol) : List Symbol :=
  trail.toList.dropWhile (fun step => !step.same method) ++ [method]

/-- The cycle through a method among the steps. -/
def cycleThrough? (trail : Trail) (method : Symbol) : Option (List Symbol) :=
  if trail.steps.any (fun step => step.same method) then some (trail.closedBy method) else none

end Trail

/-- The arrow between two methods of a chain. -/
def chainSeparator : String := " -> "

/-- The names of the methods, joined by arrows. -/
def chainOf (methods : List Symbol) : String :=
  Text.join chainSeparator (methods.map Symbol.qualifiedName)

/-- Distinct chains in the order in which they were found. -/
structure ChainLog where
  chains : List String := []
deriving DecidableEq, Repr

namespace ChainLog

/-- Whether a chain was found before. -/
def contains (log : ChainLog) (chain : String) : Bool :=
  log.chains.contains chain

/-- Take a chain down, once. -/
def add (log : ChainLog) (chain : String) : ChainLog :=
  if log.contains chain then log else ⟨log.chains ++ [chain]⟩

end ChainLog

end CyclicCalls
