import AnonymousObjects.Source.Path
import AnonymousObjects.Text.Decimal
import AnonymousObjects.Text.Quoted

/-!
# Command-line options

`Options.parse` reads the words of a command line. Long options may be shortened to any beginning
that only one option has, and a value may stand in the same word after `=`. Options of one letter
may share a word, and the value of the last may follow in it. After `--` no word is an option, and
as a value in the word of its option `--` leaves that option blank. Words that are no options are
the source file, of which there has to be one.
-/

namespace AnonymousObjects.CommandLine

/-- The options of the program. -/
inductive Switch where
  | help
  | nullable
  | jobs
  | json
  | verbose
deriving DecidableEq, Repr

namespace Switch

/-- How options are spelled, in the order in which they are listed. -/
def spellings : List (String × Switch) :=
  [("-h", .help), ("--help", .help), ("--nullable", .nullable), ("-j", .jobs), ("--jobs", .jobs),
    ("--json", .json), ("-v", .verbose), ("--verbose", .verbose)]

/-- The option with a spelling. -/
def ofSpelling? (s : String) : Option Switch :=
  spellings.lookup s

/-- Whether an option has a value. -/
def takesValue : Switch → Bool
  | .nullable | .jobs => true
  | .help | .json | .verbose => false

/-- An option as messages name it: by all of its spellings. -/
def name (s : Switch) : String :=
  String.intercalate "/" ((spellings.filter (·.2 = s)).map (·.1))

end Switch

/-- Why a command line is refused. -/
inductive UsageError where
  | ambiguous (word : String) (candidates : List String)
  | expectedValue (s : Switch)
  | unexpectedValue (s : Switch) (value : String)
  | invalidChoice (value : String)
  | invalidNumber (value : String)
  | missingSource
  | unrecognized (words : List String)
  | notFound (path : String)
deriving DecidableEq, Repr

/-- A message about an option. -/
def aboutSwitch (s : Switch) (message : String) : String :=
  "argument " ++ s.name ++ ": " ++ message

/-- The message of an error. -/
def UsageError.message : UsageError → String
  | .ambiguous word candidates =>
    "ambiguous option: " ++ word ++ " could match " ++ String.intercalate ", " candidates
  | .expectedValue s => aboutSwitch s "expected one argument"
  | .unexpectedValue s value =>
    aboutSwitch s ("ignored explicit argument " ++ Text.quoted value)
  | .invalidChoice value =>
    aboutSwitch .nullable
      ("invalid choice: " ++ Text.quoted value ++ " (choose from 'disable', 'enable')")
  | .invalidNumber value => aboutSwitch .jobs ("invalid int value: " ++ Text.quoted value)
  | .missingSource => "the following arguments are required: source"
  | .unrecognized words => "unrecognized arguments: " ++ String.intercalate " " words
  | .notFound path => "source file not found: " ++ path

/-- The summary of the command line. -/
def usage : String :=
  "usage: anonc [-h] [--nullable \x7bdisable,enable\x7d] [-j JOBS] [--json] [-v] source\n"

/-- What the program writes when it refuses a command line. -/
def UsageError.report (e : UsageError) : String :=
  usage ++ "anonc: error: " ++ e.message ++ "\n"

/-- What a word of a command line is: a value, the mark after which no word is an option, an option
with the value in its word, or an option that does not exist. -/
inductive Word where
  | value (text : String)
  | endOfOptions
  | option (spelling : String) (s : Switch) (attached : Option String)
  | unknown (text : String)
deriving DecidableEq, Repr

namespace Word

/-- A text split at its first equality sign. -/
def splitEqual? : List Char → Option (List Char × List Char)
  | [] => none
  | c :: cs =>
    if c = '=' then some ([], cs)
    else (splitEqual? cs).map fun (before, after) => (c :: before, after)

/-- A text of digits, or of digits with a point before the last of them. A line feed may follow. -/
def isNumeral (cs : List Char) : Bool :=
  let cs := if cs.getLast? = some '\n' then cs.dropLast else cs
  let isDigit (c : Char) : Bool := (Text.Decimal.digit? c).isSome
  match cs.dropWhile isDigit with
  | [] => !cs.isEmpty
  | '.' :: fraction => !fraction.isEmpty && fraction.all isDigit
  | _ => false

/-- The options that a word can mean which is not spelled out: for two dashes, those that begin with
the word up to an equality sign; for one dash, the option of its letter with the rest as value. -/
def candidates : List Char → List (String × Switch × Option String)
  | '-' :: '-' :: cs =>
    let (before, attached) :=
      match splitEqual? cs with
      | some (before, after) => (before, some (String.ofList after))
      | none => (cs, none)
    (Switch.spellings.filter fun (s, _) => ('-' :: '-' :: before).isPrefixOf s.toList).map
      fun (s, switch) => (s, switch, attached)
  | '-' :: c :: cs =>
    let short := String.ofList ['-', c]
    ((Switch.ofSpelling? short).map fun s => (short, s, some (String.ofList cs))).toList
  | _ => []

/-- The option with a value after an equality sign that a word spells out. -/
def assigned? (cs : List Char) : Option (String × Switch × String) := do
  let (before, after) ← splitEqual? cs
  let spelling := String.ofList before
  let s ← Switch.ofSpelling? spelling
  pure (spelling, s, String.ofList after)

/-- What a word is that may be an option. A negative number and a text with blanks are values. -/
def classify (text : String) : Except UsageError Word :=
  let cs := text.toList
  match cs with
  | [] | ['-'] => .ok (.value text)
  | '-' :: rest =>
    match Switch.ofSpelling? text, assigned? cs, candidates cs with
    | some s, _, _ => .ok (.option text s none)
    | none, some (spelling, s, after), _ => .ok (.option spelling s (some after))
    | none, none, [(spelling, s, attached)] => .ok (.option spelling s attached)
    | none, none, [] =>
      if isNumeral rest || ' ' ∈ cs then .ok (.value text) else .ok (.unknown text)
    | none, none, several => .error (.ambiguous text (several.map (·.1)))
  | _ => .ok (.value text)

/-- What the words of a command line are. -/
def classifyAll : List String → Except UsageError (List Word)
  | [] => pure []
  | text :: rest =>
    if text = "--" then pure (.endOfOptions :: rest.map Word.value)
    else do
      let word ← classify text
      let words ← classifyAll rest
      pure (word :: words)

end Word

/-- What an option is set to. A blank option has been given nothing for a value, which is wrong only
if the option is still blank when it is needed. -/
inductive Setting (α : Type) where
  | unset
  | value (a : α)
  | blank
deriving DecidableEq, Repr

/-- The value that an option is set to. -/
def Setting.value? {α : Type} : Setting α → Option α
  | value a => some a
  | unset | blank => none

/-- What the command line asks for. -/
structure Options where
  source : String
  nullable : Setting Bool := .unset
  jobs : Setting Int := .value 1
  json : Bool := false
  verbose : Bool := false
deriving DecidableEq, Repr

/-- Why nothing is compiled: help is asked for, or the command line is refused. -/
inductive Refusal where
  | help
  | usage (e : UsageError)
deriving DecidableEq, Repr

namespace Options

/-- What has been read of a command line: the source if it has come, the options, and the words that
nothing takes. `sourceLast` tells that the source was the last word, and `awaiting` holds an option
whose value is to come, with those set before it in the same word. -/
structure Partly where
  source : Option String := none
  sourceLast : Bool := false
  options : Options := { source := "" }
  rest : List String := []
  awaiting : Option (List Switch × Switch) := none

/-- An option without value. -/
def set (o : Options) : Switch → Except Refusal Options
  | .help => .error .help
  | .json => pure { o with json := true }
  | .verbose => pure { o with verbose := true }
  | .nullable | .jobs => pure o

/-- An option with its value. -/
def assign (o : Options) (s : Switch) (value : String) : Except Refusal Options :=
  match s with
  | .nullable =>
    if value = "--" then pure { o with nullable := .blank }
    else if value = "enable" then pure { o with nullable := .value true }
    else if value = "disable" then pure { o with nullable := .value false }
    else .error (.usage (.invalidChoice value))
  | .jobs =>
    if value = "--" then pure { o with jobs := .blank }
    else
      match Text.Decimal.integer? value with
      | some n => pure { o with jobs := .value n }
      | none => .error (.usage (.invalidNumber value))
  | .help | .json | .verbose => .error (.usage (.unexpectedValue s value))

/-- The options of one letter that share a word, after the first of them: those without value, and
the one at the end that has a value, perhaps in the word. -/
def cluster (s : Switch) : List Char → Except UsageError (List Switch × Option (Switch × List Char))
  | [] => if s.takesValue then .ok ([], some (s, [])) else .ok ([s], none)
  | c :: cs =>
    if s.takesValue then .ok ([], some (s, c :: cs))
    else
      match Switch.ofSpelling? (String.ofList ['-', c]) with
      | none => .error (.unexpectedValue s (String.ofList (c :: cs)))
      | some next => do
        let (others, last) ← cluster next cs
        pure (s :: others, last)

/-- The options that a word sets, and the one that has a value, with the value if the word holds
it. -/
def expand (spelling : String) (s : Switch) :
    Option String → Except UsageError (List Switch × Option (Switch × Option String))
  | none => .ok (if s.takesValue then ([], some (s, none)) else ([s], none))
  | some attached =>
    if s.takesValue then .ok ([], some (s, some attached))
    else if attached = "" ∨ spelling.length ≠ 2 then .error (.unexpectedValue s attached)
    else do
      let (others, last) ← cluster s attached.toList
      let value? (cs : List Char) : Option String :=
        if cs.isEmpty then none else some (String.ofList cs)
      pure (others, last.map fun (s, cs) => (s, value? cs))

/-- Sets options without value in order. -/
def setAll (o : Options) (switches : List Switch) : Except Refusal Options :=
  switches.foldlM set o

/-- Sets options without value and then one with its value. -/
def assignLast (p : Partly) (switches : List Switch) (last : Switch) (value : String) :
    Except Refusal Partly := do
  let options ← p.options.setAll switches
  let options ← options.assign last value
  pure { p with options := options, sourceLast := false, awaiting := none }

/-- Reads one more word. The first value is the source, and a mark of the end of options is dropped
before the source and right after it. -/
def read (p : Partly) (word : Word) : Except Refusal Partly :=
  match p.awaiting, word with
  | some (switches, last), .value t => assignLast p switches last t
  | some (_, last), _ => .error (.usage (.expectedValue last))
  | none, .value t =>
    match p.source with
    | none => pure { p with source := some t, sourceLast := true }
    | some _ => pure { p with rest := p.rest ++ [t], sourceLast := false }
  | none, .endOfOptions =>
    if p.source.isNone || p.sourceLast then pure { p with sourceLast := false }
    else pure { p with rest := p.rest ++ ["--"] }
  | none, .unknown t => pure { p with rest := p.rest ++ [t], sourceLast := false }
  | none, .option spelling s attached =>
    match expand spelling s attached with
    | .error e => .error (.usage e)
    | .ok (switches, none) => do
      let options ← p.options.setAll switches
      pure { p with options := options, sourceLast := false }
    | .ok (switches, some (last, some value)) => assignLast p switches last value
    | .ok (switches, some (last, none)) => pure { p with awaiting := some (switches, last) }

/-- The options of a command line. -/
def parse (args : List String) : Except Refusal Options := do
  let words ← (Word.classifyAll args).mapError .usage
  let p ← words.foldlM read {}
  match p.awaiting, p.source, p.rest with
  | some (_, last), _, _ => .error (.usage (.expectedValue last))
  | none, none, _ => .error (.usage .missingSource)
  | none, some source, [] => pure { p.options with source := Path.normal source }
  | none, some _, rest => .error (.usage (.unrecognized rest))

end Options

end AnonymousObjects.CommandLine
