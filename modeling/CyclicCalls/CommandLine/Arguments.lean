import CyclicCalls.Path
import CyclicCalls.Text.Quoted
/-!
# Command line arguments

The words of a command line are options, which start with a dash, and arguments
by position. A long option may be cut short as long as one option fits; its value
may follow after an equals sign. Short options without values may be joined. Two
dashes alone end the options.

The first run of arguments by position is shared out to all of them, so that
arguments by position after a later option are not recognized. Options take
effect in order: asking for help or for the version ends the reading at once.
-/

set_option autoImplicit false

namespace CyclicCalls.CommandLine

/-- What an option is about. -/
inductive Flag where
  | help
  | version
  | format
  | output
  | verbose
  | debug
deriving DecidableEq, Repr

namespace Flag

/-- The spellings of all options. -/
def spellings : List (String × Flag) :=
  [("-h", .help), ("--help", .help), ("--version", .version), ("--format", .format),
    ("-f", .format), ("--output", .output), ("-o", .output), ("--verbose", .verbose),
    ("-v", .verbose), ("--debug", .debug), ("-d", .debug)]

/-- The option with a given spelling. -/
def ofSpelling? (spelling : String) : Option Flag :=
  spellings.lookup spelling

/-- Whether an option takes a value. -/
def takesValue : Flag → Bool
  | .format => true
  | .output => true
  | _ => false

/-- All spellings of an option, as messages show them. -/
def shown (flag : Flag) : String :=
  Text.join "/" ((spellings.filter (fun entry => entry.2 == flag)).map (·.1))

end Flag

/-- What the arguments ask for. -/
structure Arguments where
  solution : Option String := none
  scope : Option String := none
  ignored : Option String := none
  /-- The name of the form of the report; an empty value leaves none. -/
  format : Option String := some "text"
  output : Option String := none
  verbose : Bool := false
  debug : Bool := false
deriving DecidableEq, Repr

/-- Why the reading of arguments ends without any. -/
inductive Stop where
  | help
  | version
  | error (message : String)
deriving DecidableEq, Repr

/-! ## Words -/

/-- A word of the command line. -/
inductive Word where
  | argument (text : String)
  /-- The two dashes that end the options. -/
  | separator
  /-- An option as it was spelled out, with a value attached to it. -/
  | option (flag : Flag) (spelling : String) (attached : Option String)
  | unknown (text : String)
deriving DecidableEq, Repr

/-- The text before and after the first equals sign. -/
def splitEquals? (text : String) : Option (String × String) :=
  let before := text.toList.takeWhile (· != '=')
  match text.toList.drop before.length with
  | _ :: after => some (String.ofList before, String.ofList after)
  | [] => none

/-- Whether a text is a negative number. -/
def isNegativeNumber (text : String) : Bool :=
  match text.toList with
  | '-' :: rest =>
    let digits := if rest.getLast? == some '\n' then rest.dropLast else rest
    let whole := digits.takeWhile Char.isDigit
    match digits.drop whole.length with
    | [] => !whole.isEmpty
    | '.' :: fraction => !fraction.isEmpty && fraction.all Char.isDigit
    | _ => false
  | _ => false

/-- The options that a text may be short for, with the value attached. -/
def candidates (text : String) : List (Flag × String × Option String) :=
  if Text.startsWith "--" text then
    let (lead, attached) := match splitEquals? text with
      | some (before, after) => (before, some after)
      | none => (text, none)
    (Flag.spellings.filter (fun entry => Text.startsWith lead entry.1)).map
      (fun entry => (entry.2, entry.1, attached))
  else
    let short := String.ofList (text.toList.take 2)
    let rest := String.ofList (text.toList.drop 2)
    Flag.spellings.filterMap (fun entry =>
      if entry.1 == short then some (entry.2, entry.1, some rest)
      else if Text.startsWith text entry.1 then some (entry.2, entry.1, none)
      else none)

/-- What a word before the end of the options is. -/
def classify (text : String) : Except Stop Word :=
  if !Text.startsWith "-" text then .ok (.argument text)
  else
    match Flag.ofSpelling? text with
    | some flag => .ok (.option flag text none)
    | none =>
      if text == "-" then .ok (.argument text)
      else
        let exact := (splitEquals? text).bind (fun (before, after) =>
          (Flag.ofSpelling? before).map (fun flag => Word.option flag before (some after)))
        match exact, candidates text with
        | some word, _ => .ok word
        | none, [(flag, spelling, attached)] => .ok (.option flag spelling attached)
        | none, [] =>
          if isNegativeNumber text || text.toList.contains ' ' then .ok (.argument text)
          else .ok (.unknown text)
        | none, several =>
          .error (.error ("ambiguous option: " ++ text ++ " could match " ++
            Text.join ", " (several.map (fun candidate => candidate.2.1))))

/-- The words of a command line. -/
def words : List String → Except Stop (List Word)
  | [] => .ok []
  | text :: texts =>
    if text == "--" then .ok (.separator :: texts.map .argument)
    else do
      let word ← classify text
      let others ← words texts
      pure (word :: others)

/-- The text of a word that is no option. -/
def Word.text? : Word → Option String
  | .argument text => some text
  | .separator => some "--"
  | _ => none

/-! ## Options -/

/-- The forms of a report that can be asked for. -/
def formatNames : List String := ["text", "json"]

/-- An error about one option. -/
def optionError (flag : Flag) (message : String) : Stop :=
  .error ("argument " ++ flag.shown ++ ": " ++ message)

/-- The value of an option as it counts: two dashes alone are no value. -/
def valueOf (text : String) : Option String :=
  if text == "--" then none else some text

/-- Let an option with its value take effect. -/
def apply (flag : Flag) (value : Option String) (arguments : Arguments) :
    Except Stop Arguments :=
  match flag with
  | .help => .error .help
  | .version => .error .version
  | .verbose => .ok { arguments with verbose := true }
  | .debug => .ok { arguments with debug := true }
  | .output => .ok { arguments with output := value.map (fun text => (Path.ofText text).text) }
  | .format =>
    match value with
    | none => .ok { arguments with format := none }
    | some name =>
      if formatNames.contains name then .ok { arguments with format := some name }
      else
        .error (optionError .format ("invalid choice: " ++ Text.quoted name ++ " (choose from " ++
          Text.join ", " (formatNames.map Text.quoted) ++ ")"))

/-- Let options without values take effect from left to right. -/
def applyAll (flags : List Flag) (arguments : Arguments) : Except Stop Arguments :=
  flags.foldlM (fun current flag => apply flag none current) arguments

/-- How an option that was spelled out goes on: options joined before it that
take no value, the option at the end, and a value attached to it. -/
structure Joined where
  before : List Flag := []
  last : Flag
  attached : Option String := none

/-- Take joined short options apart. Text attached to a long option without a
value, or text that is no option, is an error. -/
def unjoin (flag : Flag) (short : Bool) (before : List Flag) :
    List Char → Except Stop Joined
  | [] => .ok { before, last := flag }
  | c :: rest =>
    if flag.takesValue then
      .ok { before, last := flag, attached := some (String.ofList (c :: rest)) }
    else
      match short, Flag.ofSpelling? (String.ofList ['-', c]) with
      | true, some next => unjoin next true (before ++ [flag]) rest
      | _, _ =>
        .error (optionError flag
          ("ignored explicit argument " ++ Text.quoted (String.ofList (c :: rest))))

/-- An option with the text attached to it, taken apart. -/
def joinedOf (flag : Flag) (spelling : String) : Option String → Except Stop Joined
  | none => .ok { last := flag }
  | some "" =>
    if flag.takesValue then .ok { last := flag, attached := some "" }
    else .error (optionError flag ("ignored explicit argument " ++ Text.quoted ""))
  | some text => unjoin flag (!Text.startsWith "--" spelling) [] text.toList

/-- Let an option take effect: the arguments after it, and whether the next word
was its value. -/
def consume (joined : Joined) (next : Option Word) (arguments : Arguments) :
    Except Stop (Arguments × Bool) :=
  if joined.last.takesValue then
    match joined.attached, next with
    | some text, _ => do
      let current ← applyAll joined.before arguments
      pure (← apply joined.last (valueOf text) current, false)
    | none, some (.argument text) => do
      let current ← applyAll joined.before arguments
      pure (← apply joined.last (valueOf text) current, true)
    | none, _ => .error (optionError joined.last "expected one argument")
  else do
    let current ← applyAll joined.before arguments
    pure (← apply joined.last none current, false)

/-! ## Arguments by position -/

/-- Take the words for one optional argument off a run: separators, at most one
argument, and separators again. -/
def takeOne (run : List Word) : List Word × List Word :=
  let isSeparator : Word → Bool := fun word => word == .separator
  let lead := run.takeWhile isSeparator
  match run.drop lead.length with
  | [] => (lead, [])
  | word :: rest =>
    let tail := rest.takeWhile isSeparator
    (lead ++ word :: tail, rest.drop tail.length)

/-- The argument among the words taken for it: the first pair of dashes among them
is left out. -/
def oneArgument (taken : List Word) : Option String :=
  ((taken.filterMap Word.text?).erase "--").head?

/-- Share out a run of words to the arguments by position. -/
def shareOut (run : List Word) (arguments : Arguments) : Arguments :=
  let (first, afterFirst) := takeOne run
  let (second, afterSecond) := takeOne afterFirst
  let (third, _) := takeOne afterSecond
  { arguments with
    solution := oneArgument first
    scope := oneArgument second
    ignored := oneArgument third }

/-! ## Reading -/

/-- Where the reading stands. -/
structure Progress where
  arguments : Arguments := {}
  /-- Whether arguments by position were shared out. -/
  shared : Bool := false
  unrecognized : List String := []

/-- Whether a word is no option. -/
def Word.isPlain (word : Word) : Bool :=
  word.text?.isSome

/-- Read words from left to right. A run of words that are no options is read at
once. -/
def readWords (progress : Progress) (given : List Word) : Except Stop Progress :=
  match given with
  | [] => .ok progress
  | .unknown text :: rest =>
    readWords { progress with unrecognized := progress.unrecognized ++ [text] } rest
  | .option flag spelling attached :: rest =>
    match joinedOf flag spelling attached with
    | .error stop => .error stop
    | .ok joined =>
      match consume joined rest.head? progress.arguments with
      | .error stop => .error stop
      | .ok (arguments, usedNext) =>
        readWords { progress with arguments } (if usedNext then rest.drop 1 else rest)
  | word :: rest =>
    let run := word :: rest.takeWhile Word.isPlain
    let after := rest.drop (rest.takeWhile Word.isPlain).length
    if progress.shared then
      readWords
        { progress with unrecognized := progress.unrecognized ++ run.filterMap Word.text? } after
    else
      readWords { progress with arguments := shareOut run progress.arguments, shared := true } after
termination_by given.length
decreasing_by
  · exact Nat.lt_succ_self _
  · split <;> simp only [List.length_drop, List.length_cons] <;> omega
  · simp only [List.length_drop, List.length_cons]
    omega
  · simp only [List.length_drop, List.length_cons]
    omega

/-- Read a command line. -/
def read (texts : List String) : Except Stop Arguments := do
  let given ← words texts
  let progress ← readWords {} given
  if progress.unrecognized.isEmpty then pure progress.arguments
  else .error (.error ("unrecognized arguments: " ++ Text.join " " progress.unrecognized))

end CyclicCalls.CommandLine
