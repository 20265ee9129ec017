import CyclicCalls.Cycle.Trail
import CyclicCalls.Report.Json
/-!
# Reports

The chains of an analysis as text for people or as structured text for programs.
The plain report is empty when there are no chains.
-/

set_option autoImplicit false

namespace CyclicCalls.Report

/-- The forms of a report. -/
inductive Format where
  | text
  | json
deriving DecidableEq, Repr

/-- The name by which a form is asked for. -/
def Format.name : Format → String
  | .text => "text"
  | .json => "json"

/-- The form with a given name. -/
def Format.ofName? (name : String) : Option Format :=
  if name = "text" then some .text
  else if name = "json" then some .json
  else none

/-- A heading and an indented line for each chain. -/
def text (chains : List String) : String :=
  Text.join "\n" (chains.flatMap (fun chain => ["Cycle detected:", "\t" ++ chain]))

/-- A chain with the names of its methods. -/
def chainValue (chain : String) : Json :=
  .object [("chain", .text chain),
    ("methods", .array ((Text.split chainSeparator chain).map .text))]

/-- The chains with their methods, and their number. -/
def value (chains : List String) : Json :=
  .object [("cycles", .array (chains.map chainValue)), ("count", .number chains.length)]

/-- The report of the given chains, without a final line end. -/
def render : Format → List String → String
  | .text, chains => text chains
  | .json, chains => (value chains).write

end CyclicCalls.Report
