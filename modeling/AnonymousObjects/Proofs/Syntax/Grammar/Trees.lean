import AnonymousObjects.Syntax.Expr.Reading
import AnonymousObjects.Syntax.Program

/-!
# The grammar

Derivation trees of the language: a type for each rule, a constructor for each alternative, and
tokens as leaves. `tokens` is the row of tokens that a tree derives, and `build` the expression or
program that it stands for. A sum is a sum and one more operand, as in the rules, so trees lean to
the left where expressions of postfix operations after `?.` lean to the right.
-/

namespace AnonymousObjects.Syntax.Grammar

/-- A token of a class. -/
abbrev Terminal (k : TokenKind) : Type :=
  { t : Token // t.kind = k }

/-- A terminal is a token of its kind, with some text at some place. -/
theorem Terminal.exists_eq {k : TokenKind} : ∀ t : Terminal k,
    ∃ text position, t = ⟨⟨k, text, position⟩, rfl⟩
  | ⟨⟨_, text, position⟩, rfl⟩ => ⟨text, position, rfl⟩

/-- A name. -/
abbrev Ident : Type :=
  Terminal .name

/-- A certain mark. -/
abbrev Marked (m : Mark) : Type :=
  Terminal (.mark m)

/-- A certain keyword. -/
abbrev Word (k : Keyword) : Type :=
  Terminal (.keyword k)

/-! ## Expressions -/

mutual

/-- A sum is an operand, or a sum, a plus and an operand. -/
inductive Sum where
  | chain (operand : Chain)
  | plus (left : Sum) (op : Marked .plus) (right : Chain)

/-- An operand is a primary expression with postfix operations. -/
inductive Chain where
  | primary (head : Primary)
  | member (target : Chain) (op : Marked .dot) (name : Ident)
  | conditional (target : Chain) (op : Marked .questionDot) (name : Ident)
  | call (callee : Chain) (opening : Marked .openParen) (closing : Marked .closeParen)
  | callWith (callee : Chain) (opening : Marked .openParen) (arguments : Arguments)
      (closing : Marked .closeParen)

/-- One argument or more, with commas between them. -/
inductive Arguments where
  | last (value : Sum)
  | more (value : Sum) (comma : Marked .comma) (rest : Arguments)

/-- A primary expression. A path has at least two names. -/
inductive Primary where
  | name (token : Ident)
  | qualifiedName (first : Ident) (op : Marked .colons) (second : Ident)
      (rest : List (Marked .colons × Ident))
  | integer (token : Terminal .integer)
  | string (token : Terminal .string)
  | trueWord (token : Word .true)
  | falseWord (token : Word .false)
  | nullWord (token : Word .null)
  | paren (opening : Marked .openParen) (inner : Sum) (closing : Marked .closeParen)
  | emptyCreation (new : Word .new) (opening : Marked .openBrace) (closing : Marked .closeBrace)
  | creation (new : Word .new) (opening : Marked .openBrace) (initializers : Initializers)
      (closing : Marked .closeBrace)

/-- One initializer or more, with commas between them and perhaps after the last. -/
inductive Initializers where
  | last (init : Declarator)
  | trailing (init : Declarator) (comma : Marked .comma)
  | more (init : Declarator) (comma : Marked .comma) (rest : Initializers)

/-- An initializer with a name in front, or without. -/
inductive Declarator where
  | named (name : Ident) (op : Marked .equal) (value : Sum)
  | implicit (value : Sum)

end

mutual

/-- The tokens of a sum. -/
def Sum.tokens : Sum → List Token
  | .chain operand => operand.tokens
  | .plus left op right => left.tokens ++ op.val :: right.tokens

/-- The tokens of an operand. -/
def Chain.tokens : Chain → List Token
  | .primary head => head.tokens
  | .member target op name => target.tokens ++ [op.val, name.val]
  | .conditional target op name => target.tokens ++ [op.val, name.val]
  | .call callee opening closing => callee.tokens ++ [opening.val, closing.val]
  | .callWith callee opening arguments closing =>
    callee.tokens ++ opening.val :: (arguments.tokens ++ [closing.val])

/-- The tokens of arguments. -/
def Arguments.tokens : Arguments → List Token
  | .last value => value.tokens
  | .more value comma rest => value.tokens ++ comma.val :: rest.tokens

/-- The tokens of a primary expression. -/
def Primary.tokens : Primary → List Token
  | .name token => [token.val]
  | .qualifiedName first op second rest =>
    first.val :: op.val :: second.val :: rest.flatMap fun more => [more.1.val, more.2.val]
  | .integer token => [token.val]
  | .string token => [token.val]
  | .trueWord token => [token.val]
  | .falseWord token => [token.val]
  | .nullWord token => [token.val]
  | .paren opening inner closing => opening.val :: (inner.tokens ++ [closing.val])
  | .emptyCreation new opening closing => [new.val, opening.val, closing.val]
  | .creation new opening initializers closing =>
    new.val :: opening.val :: (initializers.tokens ++ [closing.val])

/-- The tokens of initializers. -/
def Initializers.tokens : Initializers → List Token
  | .last init => init.tokens
  | .trailing init comma => init.tokens ++ [comma.val]
  | .more init comma rest => init.tokens ++ comma.val :: rest.tokens

/-- The tokens of an initializer. -/
def Declarator.tokens : Declarator → List Token
  | .named name op value => name.val :: op.val :: value.tokens
  | .implicit value => value.tokens

end

/-- Where a primary expression starts. -/
def Primary.start : Primary → Position
  | .name token => token.val.position
  | .qualifiedName first _ _ _ => first.val.position
  | .integer token => token.val.position
  | .string token => token.val.position
  | .trueWord token => token.val.position
  | .falseWord token => token.val.position
  | .nullWord token => token.val.position
  | .paren opening _ _ => opening.val.position
  | .emptyCreation new _ _ => new.val.position
  | .creation new _ _ _ => new.val.position

/-- Where an operand starts. -/
def Chain.start : Chain → Position
  | .primary head => head.start
  | .member target _ _ => target.start
  | .conditional target _ _ => target.start
  | .call callee _ _ => callee.start
  | .callWith callee _ _ _ => callee.start

/-- Where a sum starts. -/
def Sum.start : Sum → Position
  | .chain operand => operand.start
  | .plus left _ _ => left.start

variable [Text.CharacterNames]

/-- The value of a string token, which is empty if the token has a fault. -/
def stringValue (t : Token) : Text :=
  match Text.Escape.decode t.content with
  | .ok text => text
  | .error _ => []

/-- A path of names, all of it reported where it starts. -/
def pathExpr (start : Position) (path : Expr) : List (Marked .colons × Ident) → Expr
  | [] => path
  | more :: rest =>
    pathExpr start (.qualifiedName (some start) path (Reading.nameOf more.2.val)) rest

mutual

/-- The expression of a sum. -/
def Sum.build : Sum → Expr
  | .chain operand => operand.build
  | .plus left _ right => .binary (some left.start) "+" left.build right.build

/-- The expression of an operand. A postfix operation after a conditional one belongs to what is
done when the target is not null. -/
def Chain.build : Chain → Expr
  | .primary head => head.build
  | .member target _ name => target.build.extend (Reading.access (Reading.nameOf name.val))
  | .conditional target _ name =>
    target.build.extend (Reading.conditional (Reading.nameOf name.val))
  | .call callee _ _ => callee.build.extend (Reading.call [])
  | .callWith callee _ arguments _ => callee.build.extend (Reading.call arguments.build)

/-- The expressions of arguments, in order. -/
def Arguments.build : Arguments → List Expr
  | .last value => [value.build]
  | .more value _ rest => value.build :: rest.build

/-- The expression of a primary expression. -/
def Primary.build : Primary → Expr
  | .name token => .identifier (Reading.nameOf token.val)
  | .qualifiedName first op second rest =>
    pathExpr first.val.position (.identifier (Reading.nameOf first.val)) ((op, second) :: rest)
  | .integer token =>
    .literal (some token.val.position) ⟨.int, .int (Text.Decimal.ofText token.val.text)⟩
  | .string token => .literal (some token.val.position) ⟨.string, .text (stringValue token.val)⟩
  | .trueWord token => .literal (some token.val.position) ⟨.bool, .bool true⟩
  | .falseWord token => .literal (some token.val.position) ⟨.bool, .bool false⟩
  | .nullWord token => .literal (some token.val.position) ⟨.null, .none⟩
  | .paren opening inner _ => .parenthesized (some opening.val.position) inner.build
  | .emptyCreation new _ _ => Reading.creation new.val.position []
  | .creation new _ initializers _ => Reading.creation new.val.position initializers.build

/-- The initializers, in order. -/
def Initializers.build : Initializers → List (Initializer Expr)
  | .last init => [init.build]
  | .trailing init _ => [init.build]
  | .more init _ rest => init.build :: rest.build

/-- The initializer of a declarator, reported where it starts. -/
def Declarator.build : Declarator → Initializer Expr
  | .named name _ value =>
    ⟨some name.val.position, some (Reading.nameOf name.val), value.build⟩
  | .implicit value => ⟨some value.start, none, value.build⟩

end

/-! ## Declarations -/

/-- A reference to a type: its name and stars. -/
structure TypeRef where
  name : Ident
  stars : List (Marked .star)

namespace TypeRef

/-- The tokens of a reference. -/
def tokens (r : TypeRef) : List Token :=
  r.name.val :: r.stars.map (·.val)

/-- The reference, with a pointer for each star. -/
def build (r : TypeRef) : Syntax.TypeRef :=
  ⟨r.name.val.position, r.name.val.text, r.stars.length⟩

end TypeRef

/-- A name, a colon and a type. -/
structure TypedName where
  name : Ident
  colon : Marked .colon
  type : TypeRef

/-- The tokens of a typed name. -/
def TypedName.tokens (n : TypedName) : List Token :=
  n.name.val :: n.colon.val :: n.type.tokens

/-- A field of a type. -/
structure Field where
  static : Option (Word .static)
  typed : TypedName
  semicolon : Marked .semicolon

namespace Field

/-- The tokens of a field. -/
def tokens (f : Field) : List Token :=
  f.static.toList.map (·.val) ++ (f.typed.tokens ++ [f.semicolon.val])

/-- The declaration of a field. -/
def build (f : Field) : FieldDecl :=
  ⟨f.typed.name.val.position, f.typed.name.val.text, f.typed.type.build, f.static.isSome⟩

end Field

/-- The words in front of the name of a declared type. -/
inductive TypeWords where
  | classType (word : Word .classWord)
  | structType (word : Word .struct)
  | refStructType (ref : Word .ref) (word : Word .struct)

namespace TypeWords

/-- The words themselves. -/
def tokens : TypeWords → List Token
  | .classType word => [word.val]
  | .structType word => [word.val]
  | .refStructType ref word => [ref.val, word.val]

/-- The kind of type that they announce. -/
def kind : TypeWords → TypeDeclKind
  | .classType _ => .classType
  | .structType _ => .structType
  | .refStructType _ _ => .refStructType

/-- Where the declaration starts. -/
def start : TypeWords → Position
  | .classType word => word.val.position
  | .structType word => word.val.position
  | .refStructType ref _ => ref.val.position

end TypeWords

/-- A type declaration. -/
structure TypeItem where
  words : TypeWords
  name : Ident
  opening : Marked .openBrace
  fields : List Field
  closing : Marked .closeBrace

namespace TypeItem

/-- The tokens of a type declaration. -/
def tokens (t : TypeItem) : List Token :=
  t.words.tokens ++ t.name.val :: t.opening.val ::
    (t.fields.flatMap Field.tokens ++ [t.closing.val])

/-- The declared type with its fields in order. -/
def build (t : TypeItem) : TypeDecl :=
  ⟨t.words.start, t.words.kind, t.name.val.text, t.fields.map Field.build⟩

end TypeItem

/-- A global. -/
structure GlobalItem where
  word : Word .let
  typed : TypedName
  semicolon : Marked .semicolon

namespace GlobalItem

/-- The tokens of a global. -/
def tokens (g : GlobalItem) : List Token :=
  g.word.val :: (g.typed.tokens ++ [g.semicolon.val])

/-- The declared global. -/
def build (g : GlobalItem) : GlobalDecl :=
  ⟨g.typed.name.val.position, g.typed.name.val.text, g.typed.type.build⟩

end GlobalItem

/-- A parameter. -/
def TypedName.param (n : TypedName) : ParamDecl :=
  ⟨n.name.val.text, n.type.build⟩

/-- One parameter or more, with commas between them. -/
structure Params where
  before : List (TypedName × Marked .comma)
  last : TypedName

/-- Items with the commas after them. -/
def itemTokens {α : Type} (tokens : α → List Token) (before : List (α × Marked .comma)) :
    List Token :=
  before.flatMap fun item => tokens item.1 ++ [item.2.val]

namespace Params

/-- The tokens of parameters. -/
def tokens (p : Params) : List Token :=
  itemTokens TypedName.tokens p.before ++ p.last.tokens

/-- The parameters in order. -/
def build (p : Params) : List ParamDecl :=
  p.before.map (·.1.param) ++ [p.last.param]

end Params

/-- A function. -/
structure FunctionItem where
  word : Word .fn
  name : Ident
  opening : Marked .openParen
  params : Option Params
  closing : Marked .closeParen
  colon : Marked .colon
  result : TypeRef
  semicolon : Marked .semicolon

namespace FunctionItem

/-- The tokens of a function. -/
def tokens (f : FunctionItem) : List Token :=
  f.word.val :: f.name.val :: f.opening.val :: (f.params.toList.flatMap Params.tokens ++
    f.closing.val :: f.colon.val :: (f.result.tokens ++ [f.semicolon.val]))

/-- The declared function with its parameters in order. -/
def build (f : FunctionItem) : FunctionDecl :=
  ⟨f.name.val.position, f.name.val.text, f.params.toList.flatMap Params.build, f.result.build⟩

end FunctionItem

/-- The statements and local functions of a body. -/
inductive Body where
  | nil
  | statement (value : Sum) (semicolon : Marked .semicolon) (rest : Body)
  | localFunction (word : Word .local) (name : Ident) (opening : Marked .openBrace) (inner : Body)
      (closing : Marked .closeBrace) (rest : Body)

namespace Body

/-- The tokens of a body. -/
def tokens : Body → List Token
  | nil => []
  | statement value semicolon rest => value.tokens ++ semicolon.val :: rest.tokens
  | localFunction word name opening inner closing rest =>
    word.val :: name.val :: opening.val :: (inner.tokens ++ closing.val :: rest.tokens)

/-- The expressions of the statements, in order. -/
def exprs : Body → List Expr
  | nil => []
  | statement value _ rest => value.build :: rest.exprs
  | localFunction _ _ _ _ _ rest => rest.exprs

/-- The local functions, in order. -/
def locals : Body → List MemberDecl
  | nil => []
  | statement _ _ rest => rest.locals
  | localFunction word name _ inner _ rest =>
    ⟨word.val.position, .localFunction, name.val.text, inner.exprs, inner.locals⟩ :: rest.locals

end Body

/-- The words in front of the name of a member that is a value. -/
inductive ValueWord where
  | field (word : Word .field)
  | const (word : Word .const)
  | param (word : Word .param)

namespace ValueWord

/-- The word itself. -/
def token : ValueWord → Token
  | .field word => word.val
  | .const word => word.val
  | .param word => word.val

/-- The kind of member that it announces. -/
def kind : ValueWord → MemberDeclKind
  | .field _ => .field
  | .const _ => .const
  | .param _ => .param

end ValueWord

/-- The words in front of a member with a body. -/
inductive BodyWords where
  | method (word : Word .method) (name : Ident)
  | type (word : Word .type) (name : Ident)
  | script (word : Word .script)

namespace BodyWords

/-- The words themselves. -/
def tokens : BodyWords → List Token
  | .method word name => [word.val, name.val]
  | .type word name => [word.val, name.val]
  | .script word => [word.val]

/-- The kind of member that they announce. -/
def kind : BodyWords → MemberDeclKind
  | .method _ _ => .method
  | .type _ _ => .type
  | .script _ => .script

/-- The name of the member. A script has no name of its own. -/
def name : BodyWords → String
  | .method _ name | .type _ name => name.val.text
  | .script _ => "<script>"

/-- Where the member starts. -/
def start : BodyWords → Position
  | .method word _ => word.val.position
  | .type word _ => word.val.position
  | .script word => word.val.position

end BodyWords

/-- A member: a value, or a body. -/
inductive MemberItem where
  | value (word : ValueWord) (name : Ident) (op : Marked .equal) (init : Sum)
      (semicolon : Marked .semicolon)
  | body (words : BodyWords) (opening : Marked .openBrace) (inner : Body)
      (closing : Marked .closeBrace)

namespace MemberItem

/-- The tokens of a member. -/
def tokens : MemberItem → List Token
  | .value word name op init semicolon =>
    word.token :: name.val :: op.val :: (init.tokens ++ [semicolon.val])
  | .body words opening inner closing =>
    words.tokens ++ opening.val :: (inner.tokens ++ [closing.val])

/-- The declared member, with its statements and local functions in order. -/
def build : MemberItem → MemberDecl
  | .value word name _ init _ =>
    ⟨word.token.position, word.kind, name.val.text, [init.build], []⟩
  | .body words _ inner _ => ⟨words.start, words.kind, words.name, inner.exprs, inner.locals⟩

end MemberItem

/-- A declaration. -/
inductive Item where
  | type (item : TypeItem)
  | global (item : GlobalItem)
  | function (item : FunctionItem)
  | member (item : MemberItem)

namespace Item

/-- The tokens of a declaration. -/
def tokens : Item → List Token
  | .type item => item.tokens
  | .global item => item.tokens
  | .function item => item.tokens
  | .member item => item.tokens

/-- The type that is declared, if it is one. -/
def type? : Item → Option TypeDecl
  | .type item => some item.build
  | _ => none

/-- The global that is declared, if it is one. -/
def global? : Item → Option GlobalDecl
  | .global item => some item.build
  | _ => none

/-- The function that is declared, if it is one. -/
def function? : Item → Option FunctionDecl
  | .function item => some item.build
  | _ => none

/-- The member that is declared, if it is one. -/
def member? : Item → Option MemberDecl
  | .member item => some item.build
  | _ => none

end Item

/-- A program is any number of declarations. -/
abbrev Program : Type :=
  List Item

namespace Program

/-- The tokens of a program. -/
def tokens (p : Program) : List Token :=
  p.flatMap Item.tokens

/-- The program with its types, globals, functions and members, each in order. -/
def build (p : Program) : Syntax.Program :=
  { types := p.filterMap Item.type?
    globals := p.filterMap Item.global?
    functions := p.filterMap Item.function?
    members := p.filterMap Item.member? }

end Program

end AnonymousObjects.Syntax.Grammar
