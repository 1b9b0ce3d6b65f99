import AnonymousObjects.Source.Span
import AnonymousObjects.Types.Table

/-!
# Declared symbols

The globals and functions that expressions can refer to, and the member in whose body an expression
stands, which decides whether anonymous types may be created there.
-/

namespace AnonymousObjects

/-- A declared global. -/
structure GlobalSymbol where
  name : String
  type : TypeId
  span : Span
deriving DecidableEq, Repr

/-- A declared function. -/
structure FunctionSymbol where
  name : String
  params : List TypeId
  result : TypeId
  span : Span
deriving DecidableEq, Repr

/-- The globals and functions of a program, each in order of declaration. -/
structure SymbolTable where
  globals : List GlobalSymbol := []
  functions : List FunctionSymbol := []
deriving DecidableEq, Repr

namespace SymbolTable

/-- The global of a name. -/
def global? (s : SymbolTable) (name : String) : Option GlobalSymbol :=
  s.globals.find? (·.name == name)

/-- The function of a name. -/
def function? (s : SymbolTable) (name : String) : Option FunctionSymbol :=
  s.functions.find? (·.name == name)

/-- Globals and functions share their names. -/
def isDeclared (s : SymbolTable) (name : String) : Bool :=
  (s.global? name).isSome || (s.function? name).isSome

end SymbolTable

/-- The kinds of members in whose bodies expressions stand. Lambdas come from hosts only. -/
inductive MemberKind where
  | method
  | localFunction
  | lambda
  | field
  | namedType
  | parameter
deriving DecidableEq, Repr

/-- A member in whose body an expression stands. Only fields are constant, and only named types are
script classes. -/
structure ContainingMember where
  kind : MemberKind
  name : String
  isConst : Bool := false
  isScriptClass : Bool := false
deriving DecidableEq, Repr

namespace ContainingMember

/-- Whether anonymous types may be created in a member. A script class holds statements, and no
other named type does; a constant has no value of such a type. -/
def allowsCreation (m : ContainingMember) : Bool :=
  match m.kind with
  | .method | .localFunction | .lambda => true
  | .field => !m.isConst
  | .namedType => m.isScriptClass
  | .parameter => false

end ContainingMember

/-- Anonymous types are created inside members only. -/
def allowsCreation (m : Option ContainingMember) : Bool :=
  m.any (·.allowsCreation)

end AnonymousObjects
