import CyclicCalls.Path
import CyclicCalls.Policy
import CyclicCalls.Report
/-!
# Settings of an analysis

Where the solution lies, which methods the analysis is about, and how the result
is reported.
-/

set_option autoImplicit false

namespace CyclicCalls

/-- Settings of one analysis. Without an output file the report is printed. -/
structure Settings where
  solution : Path
  scope : String
  ignored : List String := []
  format : Report.Format := .text
  output : Option String := none
deriving DecidableEq, Repr

/-- Why settings are refused. -/
inductive SettingsError where
  | unknownFormat (name : String)
deriving DecidableEq, Repr

/-- The wording of a refusal. -/
def SettingsError.message : SettingsError → String
  | .unknownFormat name => "unknown output format '" ++ name ++ "'"

namespace Settings

/-- Settings with the form of the report given by name. Repeated entries of the
list of ignored methods count once. -/
def make (solution scope : String) (ignored : List String) (formatName : String)
    (output : Option String) : Except SettingsError Settings :=
  match Report.Format.ofName? formatName with
  | none => .error (.unknownFormat formatName)
  | some format =>
    .ok { solution := Path.ofText solution, scope, ignored := ignored.eraseDups, format, output }

/-- Settings with the ignored methods given as a comma-separated list. -/
def ofList (solution scope : String) (ignored : Option String) (formatName : String)
    (output : Option String) : Except SettingsError Settings :=
  make solution scope (parseIgnored ignored) formatName output

/-- What the analysis is about. -/
def policy (settings : Settings) : Policy where
  scope := settings.scope
  ignored := settings.ignored

end Settings

end CyclicCalls
