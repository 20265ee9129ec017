import CyclicCalls.Analysis
import CyclicCalls.CommandLine.Arguments
import CyclicCalls.Text.Charset
/-!
# Running a command line

The arguments are read, the solution is analysed, and the report goes to one
place: to the standard output, or to the file that was asked for. Events are
shown on the standard error from a severity on that the arguments choose.

Either place takes a report as bytes, in the charset that the locale has for it. A
file is opened before the report is encoded, and opening it makes it empty.
-/

set_option autoImplicit false

namespace CyclicCalls.CommandLine

/-- How the arguments are written. -/
def usage : String :=
  "usage: callcycle [-h] [--version] [--format \x7btext,json\x7d] [--output OUTPUT]\n" ++
  "                 [--verbose] [--debug]\n" ++
  "                 [solution_path] [namespace_filter] [ignore_list]\n"

/-- What the arguments mean. -/
def help : String :=
  usage ++
  "\n" ++
  "callcycle - detect cyclic call chains between methods\n" ++
  "\n" ++
  "positional arguments:\n" ++
  "  solution_path         Python file or directory to analyse\n" ++
  "  namespace_filter      Module prefix of the methods to analyse (plain string\n" ++
  "                        prefix)\n" ++
  "  ignore_list           Comma-separated 'ContainingType.MethodName' entries\n" ++
  "                        that may not close a cycle\n" ++
  "\n" ++
  "options:\n" ++
  "  -h, --help            show this help message and exit\n" ++
  "  --version             show program's version number and exit\n" ++
  "  --format \x7btext,json\x7d, -f \x7btext,json\x7d\n" ++
  "                        Output format (default: text)\n" ++
  "  --output OUTPUT, -o OUTPUT\n" ++
  "                        Output file (default: stdout)\n" ++
  "  --verbose, -v         Enable verbose output\n" ++
  "  --debug, -d           Debug output\n"

/-- The name and the number of this version. -/
def version : String := "callcycle 0.1.0\n"

/-- What is shown when one of the required arguments is missing. -/
def shortUsage : String := "Usage: Program <slnPath> <namespaceFilter> [<ignoreList>]\n"

/-- The charsets of the places that a report can go to. -/
structure Locale where
  stdout : Text.Charset := .utf8
  files : Text.Charset := .utf8

/-- The charset of the place that is asked for, a file or the standard output. -/
def Locale.charset (locale : Locale) : Option String → Text.Charset
  | none => locale.stdout
  | some _ => locale.files

/-- Why a run breaks off. -/
inductive Failure where
  | settings (error : SettingsError)
  | system (error : SystemError)
  | output (error : FileError) (path : String)
  | encoding (error : Text.EncodingError)
deriving DecidableEq, Repr

/-- The wording of a run that breaks off. -/
def Failure.message : Failure → String
  | .settings error => error.message
  | .system error => error.message
  | .output error path => error.message path
  | .encoding error => error.message

/-- What a run leaves behind: the exit code, the two outputs, and the files. -/
structure Outcome where
  exit : Except Failure Nat
  stdout : String := ""
  stderr : String := ""
  files : FileTree

/-- The least severity that is shown. -/
def threshold (arguments : Arguments) : Severity :=
  if arguments.debug then .debug else if arguments.verbose then .info else .warning

/-- The lines of the events that are shown. -/
def logText (threshold : Severity) (events : List Event) : String :=
  String.join ((events.filter (fun event => threshold.rank ≤ event.severity.rank)).map
    (fun event => event.line ++ "\n"))

/-- A report as it is sent out: with a line end, unless it is empty. -/
def sent (report : String) : String :=
  if report == "" then "" else report ++ "\n"

/-- The error line of an analysis that failed, and in debug mode the head of a
trace. -/
def failureText (debug : Bool) (failure : Analysis.Failure) : String :=
  "Error: " ++ failure.message ++ "\n" ++
    (if debug then "Traceback (most recent call last):\n" else "")

/-- Send a report to the place that the settings name. An empty one is not printed. A file that
was opened for a report without an encoding stays empty. -/
def deliver (disk : Disk) (locale : Locale) (settings : Settings) (level : Severity)
    (log report : String) : Outcome :=
  let encoded := (locale.charset settings.output).encode (sent report)
  match settings.output with
  | none =>
    if report == "" then { exit := .ok 0, stderr := log, files := disk.files }
    else
      match encoded with
      | .error error => { exit := .error (.encoding error), stderr := log, files := disk.files }
      | .ok _ => { exit := .ok 0, stdout := sent report, stderr := log, files := disk.files }
  | some path =>
    match disk.write (Path.ofText path) (encoded.toOption.getD []) with
    | .error error =>
      { exit := .error (.output error path), stderr := log, files := disk.files }
    | .ok written =>
      match encoded with
      | .error error => { exit := .error (.encoding error), stderr := log, files := written }
      | .ok _ =>
        { exit := .ok 0, stderr := log ++ logText level [.reportWritten path], files := written }

/-- Analyse under the given settings and deliver the report. An error of the system is
passed on, any other failure is shown. -/
def analyse (disk : Disk) (locale : Locale) (arguments : Arguments) (settings : Settings) :
    Outcome :=
  let level := threshold arguments
  let result := Analysis.run disk settings.solution settings.policy
  let log := logText level result.events
  match result.value with
  | .ok chains => deliver disk locale settings level log (Report.render settings.format chains)
  | .error (.load (.refused error)) =>
    { exit := .error (.system error), stderr := log, files := disk.files }
  | .error failure =>
    { exit := .ok 1, stderr := log ++ failureText arguments.debug failure, files := disk.files }

/-- Run with arguments that were read. -/
def runWith (disk : Disk) (locale : Locale) (arguments : Arguments) : Outcome :=
  match arguments.solution, arguments.scope with
  | some solution, some scope =>
    match Settings.ofList solution scope arguments.ignored (arguments.format.getD "[]")
        arguments.output with
    | .error error => { exit := .error (.settings error), files := disk.files }
    | .ok settings => analyse disk locale arguments settings
  | _, _ => { exit := .ok 0, stdout := shortUsage, files := disk.files }

/-- Run a command line on a disk. -/
def run (disk : Disk) (locale : Locale) (texts : List String) : Outcome :=
  match read texts with
  | .error .help => { exit := .ok 0, stdout := help, files := disk.files }
  | .error .version => { exit := .ok 0, stdout := version, files := disk.files }
  | .error (.error message) =>
    { exit := .ok 2, stderr := usage ++ "callcycle: error: " ++ message ++ "\n",
      files := disk.files }
  | .ok arguments => runWith disk locale arguments

end CyclicCalls.CommandLine
