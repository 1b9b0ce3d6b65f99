import AnonymousObjects.Syntax.Expr

/-!
# Programs

A program declares types, globals and functions, and members whose bodies hold expressions. Each
sort of declaration keeps the order of the source text.
-/

namespace AnonymousObjects.Syntax

/-- The name of a type followed by `depth` stars. -/
structure TypeRef where
  position : Position
  name : String
  depth : Nat
deriving DecidableEq, Repr

/-- A reference as it is written. -/
def TypeRef.text (r : TypeRef) : String :=
  r.name ++ String.ofList (List.replicate r.depth '*')

/-- A field of a type declaration. -/
structure FieldDecl where
  position : Position
  name : String
  type : TypeRef
  isStatic : Bool
deriving DecidableEq, Repr

/-- The kinds of declared types. -/
inductive TypeDeclKind where
  | classType
  | structType
  | refStructType
deriving DecidableEq, Repr

/-- The declaration of a class or struct. -/
structure TypeDecl where
  position : Position
  kind : TypeDeclKind
  name : String
  fields : List FieldDecl
deriving DecidableEq, Repr

/-- The declaration of a global. -/
structure GlobalDecl where
  position : Position
  name : String
  type : TypeRef
deriving DecidableEq, Repr

/-- A parameter of a function. -/
structure ParamDecl where
  name : String
  type : TypeRef
deriving DecidableEq, Repr

/-- The signature of a function. -/
structure FunctionDecl where
  position : Position
  name : String
  params : List ParamDecl
  result : TypeRef
deriving DecidableEq, Repr

/-- The kinds of members. -/
inductive MemberDeclKind where
  | method
  | localFunction
  | field
  | const
  | param
  | script
  | type
deriving DecidableEq, Repr

/-- A member with expressions to bind. A field, constant or parameter has one, its initializer;
the others have statements and local functions. -/
structure MemberDecl where
  position : Position
  kind : MemberDeclKind
  name : String
  exprs : List Expr
  locals : List MemberDecl

/-- A program. -/
structure Program where
  types : List TypeDecl := []
  globals : List GlobalDecl := []
  functions : List FunctionDecl := []
  members : List MemberDecl := []

end AnonymousObjects.Syntax
