import AnonymousObjects.Compilation
import AnonymousObjects.CommandLine.Json
import AnonymousObjects.CommandLine.Options
import AnonymousObjects.Source.Folder
import AnonymousObjects.Syntax.Document
import AnonymousObjects.Text.NameTable

/-!
# Reports

What the program writes about a source file: a listing of the creations with the diagnostics beside
it, or everything as one JSON value; and, if asked for, the events of binding. The exit code is 1
when an error was reported, and 0 otherwise. `run` says what becomes of a source file, whatever
stands at its path.
-/

namespace AnonymousObjects.CommandLine

open Syntax (Document)

/-- What the program has written, and its exit code. -/
structure Output where
  exitCode : Nat
  stdout : String
  stderr : Text
deriving DecidableEq, Repr

/-- Lines of text. -/
def lines (ts : List Text) : Text :=
  ts.flatMap (· ++ Text.ofString "\n")

/-! ## Diagnostics -/

/-- The file of a diagnostic, or else the source file. -/
def fileOf (source : String) (d : Diagnostic) : String :=
  (Span.named? d.span.file).getD source

/-- A diagnostic as a line. -/
def diagnosticLine (source : String) (d : Diagnostic) : Text :=
  Text.ofString (fileOf source d ++ ":" ++ Span.part d.span.line ++ ":" ++
      Span.part d.span.column ++ ": " ++ d.severity ++ ": ") ++
    d.message ++
    Text.ofString ((d.code.map fun c => " [" ++ c.name ++ "]").getD "")

/-- A number that may be missing. -/
def number (n : Option Int) : Json :=
  (n.map Json.int).getD .null

/-- A diagnostic in the JSON report. -/
def diagnosticJson (source : String) (d : Diagnostic) : Json :=
  .object [("phase", .string d.phase),
    ("code", (d.code.map fun c => Json.string c.name).getD .null),
    ("message", .text d.message), ("severity", .string d.severity),
    ("file", .string (fileOf source d)), ("line", number d.span.line),
    ("column", number d.span.column), ("notes", .list [])]

/-! ## Events -/

/-- A truth value in the description of a member. -/
def truth (b : Bool) : String :=
  if b then "True" else "False"

/-- The name of a kind of member and its number, in the description of a member. -/
def kindName : MemberKind → String × String
  | .method => ("METHOD", "1")
  | .localFunction => ("LOCAL_FUNCTION", "2")
  | .lambda => ("LAMBDA", "3")
  | .field => ("FIELD", "4")
  | .namedType => ("NAMED_TYPE", "5")
  | .parameter => ("PARAMETER", "6")

/-- The full description of a member. -/
def describeMember : Option ContainingMember → String
  | none => "None"
  | some m =>
    let (kind, index) := kindName m.kind
    "ContainingMember(kind=<MemberKind." ++ kind ++ ": " ++ index ++ ">, name=" ++
      Text.quoted m.name ++ ", is_const=" ++ truth m.isConst ++ ", is_script_class=" ++
      truth m.isScriptClass ++ ")"

/-- An event as a line. -/
def eventLine : Event → String
  | .binding m =>
    "DEBUG anonc.compilation: binding " ++ (kindName m.kind).1.toLower ++ " " ++ m.name
  | .created type display =>
    "DEBUG anonc.binder.anonymous_types: anonymous type created: " ++ type ++ " " ++ display
  | .found type span =>
    "DEBUG anonc.binder.anonymous_types: anonymous type hit: " ++ type ++ " for " ++ span.text
  | .denied m =>
    "DEBUG anonc.binder.anonymous_creation: anonymous type denied in " ++ describeMember m

/-- The line that ends the events. -/
def summaryLine (members creations : Nat) : String :=
  "DEBUG anonc.driver: bound " ++ toString members ++ " member(s), " ++ toString creations ++
    " creation(s)"

/-! ## Creations -/

/-- The name of a type; a type that does not exist has none. -/
def shown (t : TypeTable) (id : TypeId) : String :=
  ((t.get? id).map (·.name)).getD ""

/-- A creation with the member it stands in. -/
structure Creation where
  member : String
  new : Option Position
  type : AnonymousType
  fields : List AnonymousField
  declarations : List PropertyDeclaration
  faulty : Bool

/-- The creation that a node is. -/
def Creation.ofNode? (member : ContainingMember) : BoundExpr → Option Creation
  | .creation _ new type fields _ declarations faulty =>
    some ⟨member.name, new, type, fields, declarations, faulty⟩
  | _ => none

/-- The creations in members, in order. -/
def creationsIn (members : List BoundMember) : List Creation :=
  (BoundMember.creationsOf members).filterMap fun (member, node) => Creation.ofNode? member node

/-- The lines for the fields of a creation, from an index on. -/
def fieldLines (t : TypeTable) : Nat → List AnonymousField → List String
  | _, [] => []
  | i, f :: rest =>
    ("  [" ++ toString i ++ "] " ++ f.name ++ ": " ++ shown t f.type ++ " (" ++
      f.nullability.label ++ ")") :: fieldLines t (i + 1) rest

/-- The lines for a creation. -/
def creationLines (t : TypeTable) (c : Creation) : List String :=
  let place := Span.ofPosition none c.new
  (c.member ++ " @" ++ Span.part place.line ++ ":" ++ Span.part place.column ++ ": " ++
    c.type.name ++ " " ++ shown t c.type.id) :: fieldLines t 0 c.fields

/-- A field of a creation in the JSON report. -/
def fieldJson (t : TypeTable) (f : AnonymousField) : Json :=
  .object [("name", .string f.name), ("type", .string (shown t f.type)),
    ("nullable", .string f.nullability.label), ("line", number f.span.line),
    ("column", number f.span.column)]

/-- A creation in the JSON report. -/
def creationJson (t : TypeTable) (c : Creation) : Json :=
  let place := Span.ofPosition none c.new
  .object [("member", .string c.member), ("line", number place.line),
    ("column", number place.column), ("type", .string c.type.name),
    ("display", .string (shown t c.type.id)), ("has_errors", .bool c.faulty),
    ("fields", .list (c.fields.map (fieldJson t))),
    ("declarations", .list (c.declarations.map fun d => .string d.property.name))]

/-- An anonymous type in the JSON report. -/
def typeJson (t : TypeTable) (a : AnonymousType) : Json :=
  .object [("name", .string a.name), ("display", .string (shown t a.id)),
    ("properties", .list (a.properties.map fun p =>
      .object [("name", .string p.name), ("type", .string (shown t p.type))]))]

/-! ## The report on a file -/

/-- The report on a file that is not read into a program. -/
def reportRefused (o : Options) (d : Diagnostic) : Output :=
  if o.json then
    let json := Json.object [("exit_code", .int 1),
      ("diagnostics", .list [diagnosticJson o.source d])]
    ⟨1, json.render ++ "\n", []⟩
  else ⟨1, "", lines [diagnosticLine o.source d]⟩

/-- The report on a program whose members have been bound. -/
def reportBound (o : Options) (c : Compilation) (store : Store) (events : List Event)
    (members : List BoundMember) : Output :=
  let diagnostics := c.problems ++ BoundMember.allDiagnosticsOf members
  let exitCode : Nat := if Diagnostic.hasErrors diagnostics then 1 else 0
  let creations := creationsIn members
  let t := store.table
  let log :=
    if o.verbose then
      (events.map eventLine ++ [summaryLine members.length creations.length]).map Text.ofString
    else []
  if o.json then
    let json := Json.object [("exit_code", .int exitCode),
      ("diagnostics", .list (diagnostics.map (diagnosticJson o.source))),
      ("anonymous_types", .list (store.registry.types.map (typeJson t))),
      ("creations", .list (creations.map (creationJson t)))]
    ⟨exitCode, json.render ++ "\n", lines log⟩
  else
    let listing := creations.flatMap (creationLines t)
    ⟨exitCode, String.join (listing.map (· ++ "\n")),
      lines (log ++ diagnostics.map (diagnosticLine o.source))⟩

/-- The blank options that a program cannot be compiled with. -/
inductive BlankOption where
  | nullable
  | jobs
deriving DecidableEq, Repr

/-- The message for a blank option. -/
def BlankOption.message : BlankOption → String
  | nullable => "unhashable type: 'list'"
  | jobs => "'>' not supported between instances of 'list' and 'int'"

/-- The blank option that is needed first. -/
def Options.blank? (o : Options) : Option BlankOption :=
  match o.nullable, o.jobs with
  | .blank, _ => some .nullable
  | _, .blank => some .jobs
  | _, _ => none

/-- The message for a source file that cannot be read. -/
def accessMessage (path : String) : AccessFault → String
  | .isDirectory => "[Errno 21] Is a directory: " ++ Text.quoted path
  | .nameTooLong => "[Errno 36] File name too long: " ++ Text.quoted path

/-- What becomes of a source file: a report, or a failure without one. -/
inductive Result where
  | reported (o : Output)
  | refused (e : UsageError)
  | barred (path : String) (fault : AccessFault)
  | blank (option : BlankOption)
  | longInteger (digits : Nat)
  | fault (f : BindFault)

/-- Compiles and reports on a program. -/
def compileProgram (o : Options) (p : Syntax.Program) : Result :=
  let c := Compilation.ofProgram p o.nullable.value? (some o.source)
  let outcome := c.bindAll
  match outcome.result with
  | .error f => .fault f
  | .ok members => .reported (reportBound o c outcome.store outcome.events members)

/-- Compiles and reports on a document. Blank options matter only for a document that is a
program. -/
def compile (o : Options) : Document → Result
  | .longInteger digits => .longInteger digits
  | .refused d => .reported (reportRefused o d)
  | .program p =>
    match o.blank? with
    | some option => .blank option
    | none => compileProgram o p

/-- Reads, compiles and reports on the source file that the options name. -/
def run [Text.CharacterNames] (o : Options) : PathTarget → Result
  | .missing => .refused (.notFound o.source)
  | .barred fault => .barred o.source fault
  | .file bytes => compile o (.ofBytes o.source bytes)

end AnonymousObjects.CommandLine
