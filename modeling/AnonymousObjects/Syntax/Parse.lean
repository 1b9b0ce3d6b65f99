import AnonymousObjects.Syntax.Program.Reading
import AnonymousObjects.Syntax.Tokens
import AnonymousObjects.Text.Lines
import AnonymousObjects.Text.Quoted

/-!
# Source texts to trees

`Expr.parse` and `Program.parse` read a whole source text. A text that is not in the language is
refused at the first token that no text of the language has at that place, or at its end. Literals
that stand for nothing are refused only in a text that is otherwise in the language, the first of
them first.
-/

namespace AnonymousObjects.Syntax

/-- Why a source text is refused. -/
inductive SyntaxError where
  | unexpectedToken (t : Token)
  | unexpectedEnd (position : Position)
  | unexpectedCharacter (c : Char) (position : Position)
  | badEscape (fault : Text.Escape.Fault) (position : Position)
deriving DecidableEq, Repr

/-- Why a source text gives no tree: it is refused, or an integer in it has too many digits. -/
inductive ParseError where
  | refused (e : SyntaxError)
  | longInteger (digits : Nat)
deriving DecidableEq, Repr

namespace SyntaxError

/-- Where an error is reported. -/
def position : SyntaxError → Position
  | unexpectedToken t => t.position
  | unexpectedEnd p | unexpectedCharacter _ p | badEscape _ p => p

/-- The words for a token that cannot stand where it does. -/
def unexpected (label text : String) (p : Position) : String :=
  "Unexpected token Token('" ++ label ++ "', " ++ Text.quoted text ++ ") at line " ++
    toString p.line ++ ", column " ++ toString p.column ++ "."

/-- The message of an error, which is a single line: an unexpected character that ends a line ends
the message. -/
def message : SyntaxError → String
  | unexpectedToken t => unexpected t.kind.label t.text t.position
  | unexpectedEnd p => unexpected "$END" "" p
  | unexpectedCharacter c p =>
    let whole := "No terminal matches '" ++ String.singleton c ++
      "' in the current parser context, at line " ++ toString p.line ++ " col " ++ toString p.column
    String.ofList (Text.Lines.first whole.toList)
  | badEscape fault _ => "invalid escape in string literal: " ++ fault.reason

end SyntaxError

/-- The message for an integer with too many digits. -/
def longIntegerMessage (digits : Nat) : String :=
  "Exceeds the limit (" ++ toString Text.Decimal.digitLimit ++
    " digits) for integer string conversion: value has " ++ toString digits ++
    " digits; use sys.set_int_max_str_digits() to increase the limit"

/-- Adds tokens to a reading one by one, up to the first that is refused. -/
def feed {σ : Type} (shift : σ → Token → Option σ) : σ → List Token → Except Token σ
  | r, [] => .ok r
  | r, t :: ts =>
    match shift r t with
    | none => .error t
    | some next => feed shift next ts

/-- Adding two rows of tokens is adding one and then the other. -/
theorem feed_append {σ : Type} (shift : σ → Token → Option σ) (r : σ) (ts us : List Token) :
    feed shift r (ts ++ us) = (feed shift r ts).bind fun next => feed shift next us := by
  induction ts generalizing r with
  | nil => rfl
  | cons t ts ih =>
    simp only [List.cons_append, feed]
    cases shift r t with
    | none => rfl
    | some next => exact ih next

variable [Text.CharacterNames]

/-- The error at the first token that stands for no value. -/
def faultIn : List Token → Option ParseError
  | [] => none
  | t :: ts =>
    match t.fault? with
    | some (.badEscape fault) => some (.refused (.badEscape fault t.position))
    | some (.longInteger digits) => some (.longInteger digits)
    | none => faultIn ts

/-- Where the last token starts, or the text if it has none. -/
def endPosition (ts : List Token) : Position :=
  (ts.getLast?.map (·.position)).getD .start

/-- What a reading makes of a row of tokens. -/
def readTokens {σ α : Type} (shift : σ → Token → Option σ) (value? : σ → Option α) (start : σ)
    (tokens : Tokens) : Except SyntaxError α :=
  match feed shift start tokens.list, tokens.unreadable with
  | .error t, _ => .error (.unexpectedToken t)
  | .ok _, some (c, p) => .error (.unexpectedCharacter c p)
  | .ok r, none =>
    match value? r with
    | some a => .ok a
    | none => .error (.unexpectedEnd (endPosition tokens.list))

/-- What a reading makes of a source text. -/
def readText {σ α : Type} (v : Vocabulary) (shift : σ → Token → Option σ) (value? : σ → Option α)
    (start : σ) (source : List Char) : Except ParseError α :=
  let tokens := Tokens.ofText v source
  match readTokens shift value? start tokens with
  | .error e => .error (.refused e)
  | .ok a =>
    match faultIn tokens.list with
    | some e => .error e
    | none => .ok a

/-- The expression that a source text is. -/
def Expr.parse (source : List Char) : Except ParseError Expr :=
  readText .expression Reading.shift Reading.value? Reading.start source

/-- The program that a source text is. -/
def Program.parse (source : List Char) : Except ParseError Program :=
  readText .program ProgramReading.shift ProgramReading.value? ProgramReading.start source

end AnonymousObjects.Syntax
