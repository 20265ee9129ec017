import CyclicCalls.Text.Quoted
/-!
# Events of an analysis

What an analysis says about its own progress. Every event has a severity and a
message. A value that comes with the events of its making is a `Logged` value;
making one value after another puts their events one after the other.
-/

set_option autoImplicit false

namespace CyclicCalls

/-- How much an event matters. -/
inductive Severity where
  | debug
  | info
  | warning
deriving DecidableEq, Repr

namespace Severity

/-- The word in front of a message. -/
def label : Severity → String
  | .debug => "DEBUG"
  | .info => "INFO"
  | .warning => "WARNING"

/-- Severities in increasing order. -/
def rank : Severity → Nat
  | .debug => 0
  | .info => 1
  | .warning => 2

end Severity

/-- The events of an analysis. -/
inductive Event where
  | analysing (solution scope : String)
  | projectOpened (name : String) (documents : Nat) (sourceRoot : String)
  | documentSkipped (path : String)
  | documentsRead (parsed skipped : Nat)
  | moduleRedefined (moduleName earlier later : String)
  | importOutside (moduleName : String)
  | importChainTooDeep (moduleName member : String)
  | callUnresolved (caller place : String)
  | callerSkipped (caller : String)
  | graphBuilt (callers calls skipped : Nat)
  | cycleFound (chain : String)
  | cyclesCounted (count : Nat)
  | reportWritten (path : String)
deriving DecidableEq, Repr

namespace Event

/-- How much an event matters. -/
def severity : Event → Severity
  | .documentSkipped _ => .warning
  | .moduleRedefined _ _ _ => .warning
  | .analysing _ _ => .info
  | .projectOpened _ _ _ => .info
  | .documentsRead _ _ => .info
  | .graphBuilt _ _ _ => .info
  | .cyclesCounted _ => .info
  | .reportWritten _ => .info
  | _ => .debug

/-- The wording of an event. -/
def message : Event → String
  | .analysing solution scope =>
    "analysing " ++ solution ++ " (namespace filter " ++ Text.quoted scope ++ ")"
  | .projectOpened name documents sourceRoot =>
    "project " ++ name ++ ": " ++ toString documents ++ " document(s) under " ++ sourceRoot
  | .documentSkipped path => "skipping " ++ path
  | .documentsRead parsed skipped =>
    "parsed " ++ toString parsed ++ " document(s), skipped " ++ toString skipped
  | .moduleRedefined moduleName earlier later =>
    "module " ++ moduleName ++ " defined by both " ++ earlier ++ " and " ++ later ++
      "; using the latter"
  | .importOutside moduleName => "cannot resolve relative import in " ++ moduleName
  | .importChainTooDeep moduleName member =>
    "import chain too deep resolving " ++ moduleName ++ "." ++ member
  | .callUnresolved caller place => "unresolved call in " ++ caller ++ ": " ++ place
  | .callerSkipped caller => "skipping caller " ++ caller
  | .graphBuilt callers calls skipped =>
    "call graph built: " ++ toString callers ++ " callers, " ++ toString calls ++ " edges (" ++
      toString skipped ++ " declarations filtered)"
  | .cycleFound chain => "cycle found: " ++ chain
  | .cyclesCounted count => toString count ++ " distinct cycle(s) found"
  | .reportWritten path => "report written to " ++ path

/-- The line that a log shows for an event. -/
def line (event : Event) : String :=
  event.severity.label ++ ": " ++ event.message

end Event

/-- A value with the events of its making, in order. -/
structure Logged (α : Type) where
  value : α
  events : List Event := []

namespace Logged

instance : Monad Logged where
  pure value := ⟨value, []⟩
  bind first next :=
    let second := next first.value
    ⟨second.value, first.events ++ second.events⟩

/-- Say something. -/
def say (event : Event) : Logged Unit :=
  ⟨(), [event]⟩

@[simp] theorem value_pure {α : Type} (value : α) : (pure value : Logged α).value = value := rfl

@[simp] theorem events_pure {α : Type} (value : α) : (pure value : Logged α).events = [] := rfl

@[simp] theorem value_bind {α β : Type} (first : Logged α) (next : α → Logged β) :
    (first >>= next).value = (next first.value).value := rfl

@[simp] theorem events_bind {α β : Type} (first : Logged α) (next : α → Logged β) :
    (first >>= next).events = first.events ++ (next first.value).events := rfl

end Logged

end CyclicCalls
