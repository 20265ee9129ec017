import CyclicCalls.CommandLine.Run
import CyclicCalls.Proofs.InternedSymbols
import CyclicCalls.Proofs.ReportEvidence
import CyclicCalls.Proofs.RootSearches
import CyclicCalls.Proofs.WrittenFiles
/-!
# Outcomes of runs

A run with a solution and a scope goes through three stages. The settings are made, which
fails only for a form of report that does not exist. The solution is analysed. It may not be
loaded, because it is not found or because one of its documents cannot be opened, perhaps after
others were taken in (`FailsToLoad`). The report is delivered to one place, the standard output or
a file, and either place receives the same text.

A run that breaks off before the report is delivered prints nothing and leaves all files as they
are (`Outcome.Silent`). So a run does all or nothing (`run_is_all_or_nothing`). The first stage
can be made to fail from the command line: two dashes given as form of the report count as no
form at all (`emptied_format_breaks_off`).

Two kinds of errors pass through a run without an exit code. An error of the system while the
solution is looked for breaks it off in silence (`runWith_of_refused`). A report that has no
encoding breaks it off late, when the file that it should go to was opened and is empty
(`runWith_of_unencodable`).
-/

set_option autoImplicit false

namespace CyclicCalls

open Solution

/-! ## Loading -/

namespace Workspace

/-- A solution cannot be loaded for the given reason: its documents are not found, or one of
them cannot be opened after all before it could. -/
inductive FailsToLoad (disk : Disk) (solution : Path) : LoadError → Prop
  | notFound {error : LoadError}
      (failed : (openAt disk solution.text).value = .error (.reported error)) :
      FailsToLoad disk solution error
  | unreadable {projects : List Project} {before later : List Document} {document : Document}
      {reason : FileError} (found : (openAt disk solution.text).value = .ok projects)
      (order : projects.flatMap (·.documents) = before ++ document :: later)
      (readable : ∀ earlier ∈ before, ∃ bytes, disk.read earlier.path = .ok bytes)
      (failed : disk.read document.path = .error reason) :
      FailsToLoad disk solution (.unreadable document.path reason)

/-- Documents are read up to the first that cannot be opened. -/
theorem readAll_eq_error_iff {disk : Disk} {documents : List Document} {error : LoadError} :
    readAll disk documents = .error error ↔
      ∃ before document later reason, documents = before ++ document :: later ∧
        (∀ earlier ∈ before, ∃ bytes, disk.read earlier.path = .ok bytes) ∧
        disk.read document.path = .error reason ∧ error = .unreadable document.path reason := by
  induction documents with
  | nil => simp [readAll]
  | cons first documents ih =>
      cases opened : disk.read first.path with
      | error reason =>
          have failed : readAll disk (first :: documents) =
              .error (.unreadable first.path reason) := by
            simp only [readAll, readDocument, opened]
            rfl
          rw [failed]
          constructor
          · rintro ⟨⟩
            exact ⟨[], first, documents, reason, rfl, by simp, opened, rfl⟩
          · rintro ⟨before, document, later, other, order, readable, unopened, rfl⟩
            cases before with
            | nil =>
                cases order
                rw [opened] at unopened
                cases unopened
                rfl
            | cons earlier before =>
                cases order
                obtain ⟨bytes, read⟩ := readable first List.mem_cons_self
                rw [opened] at read
                cases read
      | ok bytes =>
          have onward : readAll disk (first :: documents) = .error error ↔
              readAll disk documents = .error error := by
            simp only [readAll, readDocument, opened]
            cases readAll disk documents with
            | error other => exact Iff.rfl
            | ok parsed => simp [bind, Except.bind]
          rw [onward, ih]
          constructor
          · rintro ⟨before, document, later, reason, rfl, readable, unopened, named⟩
            refine ⟨first :: before, document, later, reason, rfl, ?_, unopened, named⟩
            intro earlier member
            rcases List.mem_cons.mp member with rfl | member
            · exact ⟨bytes, opened⟩
            · exact readable earlier member
          · rintro ⟨before, document, later, reason, order, readable, unopened, named⟩
            cases before with
            | nil =>
                cases order
                rw [opened] at unopened
                cases unopened
            | cons earlier before =>
                cases order
                exact ⟨before, document, later, reason, rfl,
                  fun other member => readable other (List.mem_cons_of_mem _ member), unopened,
                  named⟩

theorem readSolution_reported_iff {disk : Disk} {solution : Path} {error : LoadError} :
    readSolution disk solution = .error (.reported error) ↔ FailsToLoad disk solution error := by
  unfold readSolution
  cases found : (openAt disk solution.text).value with
  | error other =>
      constructor
      · rintro ⟨⟩
        exact .notFound found
      · intro fails
        cases fails with
        | notFound failed =>
            cases found.symm.trans failed
            rfl
        | unreadable opened => simp [found] at opened
  | ok projects =>
      have reads :
          (readAll disk (projects.flatMap (·.documents))).mapError LoadFailure.reported =
            .error (.reported error) ↔
          readAll disk (projects.flatMap (·.documents)) = .error error := by
        cases readAll disk (projects.flatMap (·.documents)) with
        | error other => simp [Except.mapError]
        | ok parsed => simp [Except.mapError]
      simp only [reads, readAll_eq_error_iff]
      constructor
      · rintro ⟨before, document, later, reason, order, readable, failed, rfl⟩
        exact .unreadable found order readable failed
      · intro fails
        cases fails with
        | notFound failed => simp [found] at failed
        | unreadable opened order readable failed =>
            cases found.symm.trans opened
            exact ⟨_, _, _, _, order, readable, failed, rfl⟩

end Workspace

namespace Analysis

/-- An analysis gives chains, or it fails to load the solution. -/
theorem run_chains_or_load (disk : Disk) (solution : Path) (policy : Policy) :
    (∃ chains, (run disk solution policy).value = .ok chains) ∨
      ∃ failure, (run disk solution policy).value = .error (.load failure) := by
  rw [run_value]
  cases Workspace.readSolution disk solution with
  | error failure => exact .inr ⟨failure, rfl⟩
  | ok parsed => exact .inl ⟨_, ofDocuments_value parsed policy⟩

theorem run_reported_iff {disk : Disk} {solution : Path} {policy : Policy} {error : LoadError} :
    (run disk solution policy).value = .error (.load (.reported error)) ↔
      Workspace.FailsToLoad disk solution error := by
  rw [run_value, ← Workspace.readSolution_reported_iff]
  cases Workspace.readSolution disk solution with
  | error other => simp
  | ok parsed => simp [ofDocuments_value]

end Analysis

/-! ## Settings -/

namespace Report.Format

theorem ofName?_name (format : Format) : ofName? format.name = some format := by
  cases format with
  | text => rfl
  | json => rfl

theorem name_of_ofName? {name : String} {format : Format} (known : ofName? name = some format) :
    format.name = name := by
  unfold ofName? at known
  split at known
  · cases known
    exact Eq.symm ‹name = "text"›
  · split at known
    · cases known
      exact Eq.symm ‹name = "json"›
    · cases known

end Report.Format

theorem eraseDups_parseIgnored (given : Option String) :
    (parseIgnored given).eraseDups = parseIgnored given := by
  cases given with
  | none => rfl
  | some text => exact eraseDups_eq_self (nodup_eraseDups _)

namespace CommandLine

/-! ## Delivery -/

/-- A run that prints nothing and leaves the files as they are. -/
structure Outcome.Silent (outcome : Outcome) (files : FileTree) : Prop where
  stdout : outcome.stdout = ""
  files : outcome.files = files

/-- A run that prints a text and leaves the files as they are. -/
structure Outcome.Prints (outcome : Outcome) (files : FileTree) (text : String) : Prop where
  exit : outcome.exit = .ok 0
  stdout : outcome.stdout = text
  files : outcome.files = files

/-- A run that prints nothing and changes one file, at a path: reading it gives the bytes. -/
structure Outcome.Stores (outcome : Outcome) (files : FileTree) (path : Path)
    (place : List String) (bytes : Source.Bytes) : Prop where
  exit : outcome.exit = .ok 0
  stdout : outcome.stdout = ""
  read : outcome.files.read path = .ok bytes
  contents : outcome.files.content? = Function.update files.content? place (some bytes)

/-- A report as a place receives it: with one line end, or nothing at all. -/
theorem sent_eq (report : String) : sent report = if report = "" then "" else report ++ "\n" := by
  simp [sent]

/-- Where the report goes: as a text to the standard output, or encoded to a file that can be
written. A file that cannot be written breaks the run off. -/
def Outcome.Delivers (outcome : Outcome) (disk : Disk) (text : String) (bytes : Source.Bytes) :
    Option String → Prop
  | none => outcome.Prints disk.files text
  | some path =>
    (∀ place, disk.Writable (Path.ofText path) place →
      outcome.Stores disk.files (Path.ofText path) place bytes) ∧
    ((∀ place, ¬ disk.Writable (Path.ofText path) place) →
      (∃ error, outcome.exit = .error (.output error path)) ∧ outcome.Silent disk.files)

section Deliveries

variable {disk : Disk} {locale : Locale} {settings : Settings} {report : String}
  (level : Severity) (log : String)

/-- A report goes to the place that the settings name, and nowhere else. -/
theorem deliver_delivers {entries : List (String × FileTree)}
    (rooted : disk.files = .directory entries) {bytes : Source.Bytes}
    (encoded : (locale.charset settings.output).encode (sent report) = .ok bytes) :
    (deliver disk locale settings level log report).Delivers disk (sent report) bytes
      settings.output := by
  unfold deliver
  rw [encoded]
  cases settings.output with
  | none =>
      by_cases empty : report = ""
      · subst empty
        exact ⟨rfl, rfl, rfl⟩
      · simp only [beq_iff_eq, empty, if_false]
        exact ⟨rfl, rfl, rfl⟩
  | some path =>
      constructor
      · intro place writable
        have leads := rooted ▸ writable.leads
        simp only [Except.toOption, Option.getD_some, writable.write, rooted]
        exact ⟨rfl, rfl, leads.read_put bytes, leads.content?_put bytes⟩
      · intro nowhere
        cases written : disk.write (Path.ofText path) bytes with
        | error error =>
            simp only [Except.toOption, Option.getD_some, written]
            exact ⟨⟨error, rfl⟩, rfl, rfl⟩
        | ok later =>
            obtain ⟨place, writable⟩ := Disk.exists_writable_of_write written
            exact absurd writable (nowhere place)

/-- A report without an encoding is found out when its file was opened, and is empty. -/
theorem deliver_unencodable {entries : List (String × FileTree)}
    (rooted : disk.files = .directory entries) {path : String} {place : List String}
    {error : Text.EncodingError} (named : settings.output = some path)
    (writable : disk.Writable (Path.ofText path) place)
    (unencodable : locale.files.encode (sent report) = .error error) :
    let outcome := deliver disk locale settings level log report
    outcome.exit = .error (.encoding error) ∧ outcome.stdout = "" ∧
      outcome.files.content? = Function.update disk.files.content? place (some []) := by
  have leads := rooted ▸ writable.leads
  simp only [deliver, named, Locale.charset, unencodable, Except.toOption, Option.getD_none,
    writable.write, rooted]
  exact ⟨trivial, trivial, leads.content?_put []⟩

/-- A delivery never ends with the exit code of a failed analysis. -/
theorem deliver_exit_ne (report : String) :
    (deliver disk locale settings level log report).exit ≠ .ok 1 := by
  simp only [deliver]
  split
  · split
    · simp
    · split
      · simp
      · simp
  · split
    · simp
    · split
      · simp
      · simp

end Deliveries

/-! ## Whole runs -/

/-- The settings that arguments ask for, in a form of report that exists. -/
def settingsFor (arguments : Arguments) (solution scope : String) (format : Report.Format) :
    Settings where
  solution := Path.ofText solution
  scope := scope
  ignored := parseIgnored arguments.ignored
  format := format
  output := arguments.output

section Runs

variable {disk : Disk} {locale : Locale} {arguments : Arguments} {solution scope : String}

/-- A run with a solution and a scope: without a form that exists it breaks off before anything
is looked at, and otherwise the solution is analysed. -/
theorem runWith_eq (located : arguments.solution = some solution)
    (bounded : arguments.scope = some scope) :
    runWith disk locale arguments =
      match Report.Format.ofName? (arguments.format.getD "[]") with
      | none =>
        { exit := .error (.settings (.unknownFormat (arguments.format.getD "[]")))
          files := disk.files }
      | some format =>
        analyse disk locale arguments (settingsFor arguments solution scope format) := by
  simp only [runWith, located, bounded, Settings.ofList, Settings.make, eraseDups_parseIgnored]
  cases Report.Format.ofName? (arguments.format.getD "[]") with
  | none => rfl
  | some format => rfl

theorem ofName?_eq_none {given : Option String}
    (unknown : ∀ format : Report.Format, given ≠ some format.name) :
    Report.Format.ofName? (given.getD "[]") = none := by
  cases known : Report.Format.ofName? (given.getD "[]") with
  | none => rfl
  | some format =>
      have named := Report.Format.name_of_ofName? known
      cases given with
      | none => cases format <;> simp [Report.Format.name] at named
      | some name => exact absurd (congrArg some named.symm) (unknown format)

/-- In a form that exists, a run analyses the solution. -/
theorem runWith_known (located : arguments.solution = some solution)
    (bounded : arguments.scope = some scope) {format : Report.Format}
    (asked : arguments.format = some format.name) :
    runWith disk locale arguments =
      analyse disk locale arguments (settingsFor arguments solution scope format) := by
  rw [runWith_eq located bounded, asked, Option.getD_some, Report.Format.ofName?_name]

end Runs

section Analyses

variable {disk : Disk} {locale : Locale} {arguments : Arguments} (settings : Settings)

/-- An analysis that reports why it fails to load ends with exit code 1, in silence. -/
theorem analyse_of_reported {error : LoadError}
    (failed : (Analysis.run disk settings.solution settings.policy).value =
      .error (.load (.reported error))) :
    (analyse disk locale arguments settings).exit = .ok 1 ∧
      (analyse disk locale arguments settings).Silent disk.files := by
  simp only [analyse, failed]
  exact ⟨trivial, rfl, rfl⟩

/-- An error of the system is passed on, in silence. -/
theorem analyse_of_refused {error : SystemError}
    (failed : (Analysis.run disk settings.solution settings.policy).value =
      .error (.load (.refused error))) :
    (analyse disk locale arguments settings).exit = .error (.system error) ∧
      (analyse disk locale arguments settings).Silent disk.files := by
  simp only [analyse, failed]
  exact ⟨trivial, rfl, rfl⟩

/-- The chains of an analysis are delivered. -/
theorem analyse_of_chains {chains : List String}
    (reported : (Analysis.run disk settings.solution settings.policy).value = .ok chains) :
    analyse disk locale arguments settings =
      deliver disk locale settings (threshold arguments)
        (logText (threshold arguments)
          (Analysis.run disk settings.solution settings.policy).events)
        (Report.render settings.format chains) := by
  simp only [analyse, reported]

/-- Exit code 1 stands for a solution that cannot be loaded for a reported reason. -/
theorem analyse_exit_iff :
    (analyse disk locale arguments settings).exit = .ok 1 ↔
      ∃ error, (Analysis.run disk settings.solution settings.policy).value =
        .error (.load (.reported error)) := by
  constructor
  · intro ended
    rcases Analysis.run_chains_or_load disk settings.solution settings.policy with
      ⟨chains, reported⟩ | ⟨failure, failed⟩
    · rw [analyse_of_chains settings reported] at ended
      exact absurd ended (deliver_exit_ne _ _ _)
    · cases failure with
      | reported error => exact ⟨error, failed⟩
      | refused error => simp [(analyse_of_refused settings failed).1] at ended
  · rintro ⟨error, failed⟩
    exact (analyse_of_reported settings failed).1

end Analyses

/-- **A run does all or nothing.** Given a solution and a scope, a run whose form of report
does not exist breaks off in silence. In a form that exists, it ends with exit code 1 exactly if
the analysis reports that it cannot load the solution, which happens when the documents are not
found or one of them cannot be opened, and then it is silent. When the analysis gives chains and
their report can be encoded, the whole report goes to the one place that was asked for. -/
theorem run_is_all_or_nothing (disk : Disk) (locale : Locale) (entries : List (String × FileTree))
    (rooted : disk.files = .directory entries) (arguments : Arguments) (solution scope : String)
    (located : arguments.solution = some solution) (bounded : arguments.scope = some scope) :
    let outcome := runWith disk locale arguments
    let analysis := (Analysis.run disk (Path.ofText solution)
      ⟨scope, parseIgnored arguments.ignored⟩).value
    ((∀ format : Report.Format, arguments.format ≠ some format.name) →
      outcome.exit = .error (.settings (.unknownFormat (arguments.format.getD "[]"))) ∧
        outcome.Silent disk.files) ∧
    ∀ format : Report.Format, arguments.format = some format.name →
      (outcome.exit = .ok 1 ↔ ∃ error, analysis = .error (.load (.reported error))) ∧
      (∀ error, analysis = .error (.load (.reported error)) ↔
        Workspace.FailsToLoad disk (Path.ofText solution) error) ∧
      (outcome.exit = .ok 1 → outcome.Silent disk.files) ∧
      ∀ chains, analysis = .ok chains →
        let text :=
          if Report.render format chains = "" then "" else Report.render format chains ++ "\n"
        ∀ bytes, (locale.charset arguments.output).encode text = .ok bytes →
          outcome.Delivers disk text bytes arguments.output := by
  intro outcome analysis
  constructor
  · intro unknown
    have stages : outcome = _ := runWith_eq located bounded
    rw [ofName?_eq_none unknown] at stages
    rw [stages]
    exact ⟨rfl, rfl, rfl⟩
  · intro format asked
    have stages : outcome = _ := runWith_known located bounded asked
    have exits : outcome.exit = .ok 1 ↔ ∃ error, analysis = .error (.load (.reported error)) := by
      rw [stages]
      exact analyse_exit_iff (settingsFor arguments solution scope format)
    refine ⟨exits, ?_, ?_, ?_⟩
    · intro error
      exact Analysis.run_reported_iff
    · intro ended
      obtain ⟨error, failed⟩ := exits.mp ended
      rw [stages]
      exact (analyse_of_reported (settingsFor arguments solution scope format) failed).2
    · intro chains reported text bytes encoded
      have sends : text = sent (Report.render format chains) := (sent_eq _).symm
      rw [stages, analyse_of_chains (settingsFor arguments solution scope format) reported, sends]
      rw [sends] at encoded
      exact deliver_delivers _ _ rooted encoded

section BrokenOff

variable {disk : Disk} {locale : Locale} {arguments : Arguments} {solution scope : String}
  {format : Report.Format} (located : arguments.solution = some solution)
  (bounded : arguments.scope = some scope) (asked : arguments.format = some format.name)

include located bounded asked

/-- An error of the system breaks a run off in silence. -/
theorem runWith_of_refused {error : SystemError}
    (failed : (Analysis.run disk (Path.ofText solution)
      ⟨scope, parseIgnored arguments.ignored⟩).value = .error (.load (.refused error))) :
    (runWith disk locale arguments).exit = .error (.system error) ∧
      (runWith disk locale arguments).Silent disk.files := by
  rw [runWith_known located bounded asked]
  exact analyse_of_refused (settingsFor arguments solution scope format) failed

/-- **A report without an encoding empties the file that it should go to.** The run breaks off
when the file was opened. -/
theorem runWith_of_unencodable {entries : List (String × FileTree)}
    (rooted : disk.files = .directory entries) {chains : List String}
    (reported : (Analysis.run disk (Path.ofText solution)
      ⟨scope, parseIgnored arguments.ignored⟩).value = .ok chains)
    {path : String} {place : List String} (named : arguments.output = some path)
    (writable : disk.Writable (Path.ofText path) place) {error : Text.EncodingError}
    (unencodable : locale.files.encode (sent (Report.render format chains)) = .error error) :
    (runWith disk locale arguments).exit = .error (.encoding error) ∧
      (runWith disk locale arguments).stdout = "" ∧
      (runWith disk locale arguments).files.content? =
        Function.update disk.files.content? place (some []) := by
  rw [runWith_known located bounded asked,
    analyse_of_chains (settingsFor arguments solution scope format) reported]
  exact deliver_unencodable _ _ rooted named writable unencodable

end BrokenOff

-- With files in ASCII, the report of a cycle in `é.py` cannot be stored, and `o.txt` is empty.
example :
    let ascii := Text.Charset.byCharacter "ascii" "ordinal not in range(128)"
      (fun c => if c.toNat < 128 then some [c.toNat.toUInt8] else none)
    let outcome := runWith
      (Disk.ofFiles (.directory [("é.py", .file "def load():\n    load()\n".toUTF8.toList)]))
      { files := ascii } { solution := some ".", scope := some "", output := some "o.txt" }
    outcome.exit = .error (.encoding ⟨"ascii", "ordinal not in range(128)", 17, 'é', []⟩) ∧
      outcome.files.content? ["o.txt"] = some [] := by
  decide +kernel

/-- One module with a function that calls itself. -/
def selfCalling : List (String × FileTree) :=
  [("app.py", .file "def load():\n    load()\n".toUTF8.toList)]

/-- The report of a cycle is stored in a file beside the module. -/
theorem run_is_all_or_nothing_stored :
    (runWith (Disk.ofFiles (.directory selfCalling)) {}
      { solution := some ".", scope := some "app", output := some "cycles.txt" }).Stores
      (.directory selfCalling) (Path.ofText "cycles.txt") ["cycles.txt"]
      "Cycle detected:\n\tapp.load -> app.load\n".toUTF8.toList := by
  obtain ⟨_, known⟩ := run_is_all_or_nothing (Disk.ofFiles (.directory selfCalling)) {} selfCalling
    rfl { solution := some ".", scope := some "app", output := some "cycles.txt" } "." "app" rfl rfl
  obtain ⟨_, _, _, finished⟩ := known .text rfl
  have reported : (Analysis.run (Disk.ofFiles (.directory selfCalling)) (Path.ofText ".")
      ⟨"app", parseIgnored none⟩).value = .ok ["app.load -> app.load"] := by
    decide +kernel
  have delivers := finished _ reported
    "Cycle detected:\n\tapp.load -> app.load\n".toUTF8.toList (by decide +kernel)
  have named : Path.ofText "cycles.txt" = ⟨.here, [] ++ ["cycles.txt"]⟩ := by decide +kernel
  have leads : (FileTree.directory selfCalling).Writable ⟨.here, [] ++ ["cycles.txt"]⟩
      (FileTree.anchorNames .here ++ ([] ++ ["cycles.txt"])) :=
    .intro (by decide) rfl rfl rfl
  apply delivers.1
  rw [named]
  exact ⟨rfl, leads⟩

/-! ## A form of report that is no form -/

/-- One module with a function that makes no calls. -/
def callFree : List (String × FileTree) :=
  [("app.py", .file "def load():\n    return 1\n".toUTF8.toList)]

/-- **Two dashes given as form of the report leave no form.** The arguments are read without
complaint and the analysis finds no cycle, but the run breaks off without an exit code. -/
theorem emptied_format_breaks_off :
    ∃ arguments, read [".", "app", "--format=--"] = .ok arguments ∧
      arguments.solution = some "." ∧ arguments.scope = some "app" ∧ arguments.output = none ∧
      (Analysis.run (Disk.ofFiles (.directory callFree)) (Path.ofText ".")
        ⟨"app", parseIgnored arguments.ignored⟩).value = .ok [] ∧
      (runWith (Disk.ofFiles (.directory callFree)) {} arguments).exit =
        .error (.settings (.unknownFormat "[]")) := by
  refine ⟨{ solution := some ".", scope := some "app", format := none }, ?_, rfl, rfl, rfl, ?_, ?_⟩
  · decide +kernel
  · decide +kernel
  · decide +kernel

end CommandLine

end CyclicCalls
