import AnonymousObjects.CommandLine.Report

/-!
# The program

The command line: reads the options, reads the source file, and writes the report.
-/

namespace AnonymousObjects.CommandLine

/-- The text that `--help` asks for. -/
def help : String :=
  usage ++
    "\nbind anonymous object creation expressions\n" ++
    "\npositional arguments:\n" ++
    "  source                Path to the source file\n" ++
    "\noptions:\n" ++
    "  -h, --help            show this help message and exit\n" ++
    "  --nullable \x7bdisable,enable\x7d\n" ++
    "                        Nullable reference types feature state (default:\n" ++
    "                        unspecified)\n" ++
    "  -j JOBS, --jobs JOBS  Bind members on this many worker threads\n" ++
    "  --json                Emit diagnostics and bound creations as JSON\n" ++
    "  -v, --verbose         Enable debug logging\n"

/-- A text as a terminal shows it: halves of surrogate pairs as escapes. -/
def terminal (t : Text) : String :=
  String.ofList (t.flatMap fun p =>
    match p.toChar? with
    | some c => [c]
    | none => Text.Quoted.codeEscape p.val)

/-- Ends with a usage error. -/
def refuse (e : UsageError) : IO UInt32 := do
  (← IO.getStderr).putStr e.report
  pure 2

/-- Ends with a failure that is no report. -/
def fail (message : String) : IO UInt32 := do
  (← IO.getStderr).putStr (message ++ "\n")
  pure 1

/-- Writes what the program has to say. -/
def write : Result → IO UInt32
  | .reported o => do
    (← IO.getStdout).putStr o.stdout
    (← IO.getStderr).putStr (terminal o.stderr)
    pure o.exitCode.toUInt32
  | .refused e => refuse e
  | .barred path fault => fail (accessMessage path fault)
  | .blank option => fail option.message
  | .longInteger digits => fail (Syntax.longIntegerMessage digits)
  | .fault f => fail f.message

/-- Whether the operating system gives a number as its reason, which may come negated. -/
def isReason (code number : UInt32) : Bool :=
  code == number || code == 0 - number

/-- What stands at a path. -/
def target (path : String) : IO PathTarget := do
  if Path.leadsNowhere path then return .missing
  try
    let bytes ← IO.FS.readBinFile path
    pure (.file bytes.toList)
  catch
    | .noFileOrDirectory _ _ _ => pure .missing
    | .inappropriateType _ code _ =>
      pure (if isReason code 21 then .barred .isDirectory else .missing)
    | .invalidArgument name code details =>
      if isReason code 36 then pure (.barred .nameTooLong)
      else throw (.invalidArgument name code details)
    | e => throw e

/-- Compiles the source file that the options name. -/
def runOn (o : Options) : IO UInt32 := do
  write (run o (← target o.source))

end AnonymousObjects.CommandLine

/-- Runs the program on the words of its command line. -/
def main (args : List String) : IO UInt32 := do
  match AnonymousObjects.CommandLine.Options.parse args with
  | .error .help => do
    (← IO.getStdout).putStr AnonymousObjects.CommandLine.help
    pure 0
  | .error (.usage e) => AnonymousObjects.CommandLine.refuse e
  | .ok o => AnonymousObjects.CommandLine.runOn o
