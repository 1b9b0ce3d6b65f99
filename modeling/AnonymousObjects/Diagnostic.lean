import AnonymousObjects.Source.Span
import AnonymousObjects.Text.CodePoint

/-!
# Diagnostics

A `Problem` is what the declaration pass or the binder finds wrong, with the names and types that
it concerns. Its `code` is stable; its message is the code's template with the arguments filled
in, and `fill_template` says that a problem always brings every argument that its template asks for.
A `Diagnostic` is the record shown to the user.
-/

namespace AnonymousObjects

/-- The kinds of problems, by which tools recognise them. -/
inductive Code where
  | invalidMemberDeclarator
  | duplicatePropertyName
  | badPropertyValueType
  | anonymousTypeNotAvailable
  | undefinedName
  | noSuchMember
  | notAValue
  | notInvocable
  | badArity
  | badBinaryOperands
  | badConditionalReceiver
  | duplicateDeclaration
  | unknownType
deriving DecidableEq, Repr

/-- A part of a message template: words, or the place of an argument. -/
inductive Piece where
  | words (s : String)
  | hole (index : Nat)
deriving DecidableEq, Repr

namespace Piece

/-- The text of a template with arguments in its holes, or the first hole without an argument. -/
def fill (arguments : List Text) : List Piece → Except Nat Text
  | [] => .ok []
  | .words s :: rest => (Text.ofString s ++ ·) <$> fill arguments rest
  | .hole i :: rest =>
    match arguments[i]? with
    | none => .error i
    | some t => (t ++ ·) <$> fill arguments rest

end Piece

namespace Code

/-- Every code. -/
def all : List Code :=
  [.invalidMemberDeclarator, .duplicatePropertyName, .badPropertyValueType,
    .anonymousTypeNotAvailable, .undefinedName, .noSuchMember, .notAValue, .notInvocable, .badArity,
    .badBinaryOperands, .badConditionalReceiver, .duplicateDeclaration, .unknownType]

/-- The name under which a code is reported. -/
def name : Code → String
  | .invalidMemberDeclarator => "InvalidMemberDeclarator"
  | .duplicatePropertyName => "DuplicatePropertyName"
  | .badPropertyValueType => "BadPropertyValueType"
  | .anonymousTypeNotAvailable => "AnonymousTypeNotAvailable"
  | .undefinedName => "UndefinedName"
  | .noSuchMember => "NoSuchMember"
  | .notAValue => "NotAValue"
  | .notInvocable => "NotInvocable"
  | .badArity => "BadArity"
  | .badBinaryOperands => "BadBinaryOperands"
  | .badConditionalReceiver => "BadConditionalReceiver"
  | .duplicateDeclaration => "DuplicateDeclaration"
  | .unknownType => "UnknownType"

/-- The code with a name. -/
def ofName? (s : String) : Option Code :=
  all.find? (·.name = s)

/-- The message of a code, with a hole for each argument. -/
def template : Code → List Piece
  | .invalidMemberDeclarator =>
    [.words ("invalid anonymous type member declarator; members must be declared with a " ++
      "member assignment, simple name or member access")]
  | .duplicatePropertyName =>
    [.words "an anonymous type cannot have multiple properties with the same name"]
  | .badPropertyValueType =>
    [.words "cannot assign '", .hole 0, .words "' to anonymous type property"]
  | .anonymousTypeNotAvailable => [.words "anonymous types are not available in this context"]
  | .undefinedName =>
    [.words "the name '", .hole 0, .words "' does not exist in the current context"]
  | .noSuchMember =>
    [.words "'", .hole 0, .words "' does not contain a definition for '", .hole 1, .words "'"]
  | .notAValue =>
    [.words "'", .hole 0, .words "' is a type, which is not valid in the given context"]
  | .notInvocable => [.words "'", .hole 0, .words "' is not invocable"]
  | .badArity =>
    [.words "'", .hole 0, .words "' expects ", .hole 1, .words " argument(s), got ", .hole 2]
  | .badBinaryOperands =>
    [.words "operator '", .hole 0, .words "' cannot be applied to operands of type '", .hole 1,
      .words "' and '", .hole 2, .words "'"]
  | .badConditionalReceiver =>
    [.words "operator '?.' cannot be applied to operand of type '", .hole 0, .words "'"]
  | .duplicateDeclaration => [.words "'", .hole 0, .words "' is already declared"]
  | .unknownType => [.words "the type '", .hole 0, .words "' could not be found"]

end Code

/-- What can be wrong with a program that parses. -/
inductive Problem where
  | invalidMemberDeclarator
  | duplicatePropertyName
  | badPropertyValueType (value : Text)
  | anonymousTypeNotAvailable
  | undefinedName (name : String)
  | noSuchMember (owner : Text) (member : String)
  | notAValue (name : String)
  | notInvocable (callee : Text)
  | badArity (function : String) (expected given : Nat)
  | badBinaryOperands (op : String) (left right : Text)
  | badConditionalReceiver (receiver : Text)
  | duplicateDeclaration (name : String)
  | unknownType (name : Text)
deriving DecidableEq, Repr

namespace Problem

/-- The code of a problem. -/
def code : Problem → Code
  | .invalidMemberDeclarator => .invalidMemberDeclarator
  | .duplicatePropertyName => .duplicatePropertyName
  | .badPropertyValueType _ => .badPropertyValueType
  | .anonymousTypeNotAvailable => .anonymousTypeNotAvailable
  | .undefinedName _ => .undefinedName
  | .noSuchMember _ _ => .noSuchMember
  | .notAValue _ => .notAValue
  | .notInvocable _ => .notInvocable
  | .badArity _ _ _ => .badArity
  | .badBinaryOperands _ _ _ => .badBinaryOperands
  | .badConditionalReceiver _ => .badConditionalReceiver
  | .duplicateDeclaration _ => .duplicateDeclaration
  | .unknownType _ => .unknownType

/-- The arguments of a problem's message, in the order of the holes. -/
def arguments : Problem → List Text
  | .invalidMemberDeclarator | .duplicatePropertyName | .anonymousTypeNotAvailable => []
  | .badPropertyValueType t | .notInvocable t | .badConditionalReceiver t | .unknownType t => [t]
  | .undefinedName s | .notAValue s | .duplicateDeclaration s => [Text.ofString s]
  | .noSuchMember owner member => [owner, Text.ofString member]
  | .badArity function expected given =>
    [Text.ofString function, Text.ofString (toString expected), Text.ofString (toString given)]
  | .badBinaryOperands op left right => [Text.ofString op, left, right]

/-- The message of a problem. -/
def message (p : Problem) : Text :=
  match Piece.fill p.arguments p.code.template with
  | .ok t => t
  | .error _ => []

/-- A problem has an argument for every hole of its template. -/
theorem fill_template (p : Problem) : Piece.fill p.arguments p.code.template = .ok p.message := by
  cases p <;> rfl

end Problem

/-- A message about a source text. Hosts may use phases and severities of their own. -/
structure Diagnostic where
  message : Text
  code : Option Code
  phase : String
  severity : String
  span : Span
deriving DecidableEq, Repr

namespace Diagnostic

/-- An error that has a code, with given arguments for the holes of its message. -/
def ofCode (phase : String) (code : Code) (span : Span) (arguments : List Text) :
    Except Nat Diagnostic :=
  (Piece.fill arguments code.template).map fun message =>
    { message := message, code := some code, phase := phase, severity := "error", span := span }

/-- The error that reports a problem. -/
def ofProblem (phase : String) (p : Problem) (span : Span) : Diagnostic :=
  { message := p.message, code := some p.code, phase := phase, severity := "error", span := span }

/-- Only diagnostics of severity `error` are errors. -/
def isError (d : Diagnostic) : Bool :=
  d.severity == "error"

/-- Whether there is an error among diagnostics. -/
def hasErrors (ds : List Diagnostic) : Bool :=
  ds.any isError

end Diagnostic

end AnonymousObjects
