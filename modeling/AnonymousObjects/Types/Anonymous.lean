import AnonymousObjects.Source.Span
import AnonymousObjects.Types.Table

/-!
# Anonymous types

An anonymous type has an ordered list of named fields. Types with the same names share a `Template`,
and its members are a constructor that takes the fields in order, a property for each field, and the
three methods that every such type overrides.
-/

namespace AnonymousObjects

/-- Whether a field of a reference type is known to be null at times. -/
inductive Nullability where
  | annotated
  | notAnnotated
  | unknown
deriving DecidableEq, Repr

namespace Nullability

/-- Every state. -/
def all : List Nullability :=
  [.annotated, .notAnnotated, .unknown]

/-- How a state is reported. -/
def label : Nullability → String
  | annotated => "Annotated"
  | notAnnotated => "NotAnnotated"
  | unknown => "Unknown"

/-- The state with a label. -/
def ofLabel? (s : String) : Option Nullability :=
  all.find? (·.label = s)

/-- The state of a field of a type. It is unknown unless nullable references are switched on or
off; switched on, the fields of reference types are annotated. -/
def ofType (t : TypeTable) (id : TypeId) : Option Bool → Except UnknownType Nullability
  | none => pure unknown
  | some false => pure notAnnotated
  | some true => do
    let shape ← t.shape id
    pure (if shape.isReference then annotated else notAnnotated)

end Nullability

/-- A field of an anonymous type as a creation asks for it. Only the name and the type belong to the
type; where the name stands and the nullability belong to the creation. -/
structure AnonymousField where
  name : String
  span : Span
  type : TypeId
  nullability : Nullability := .unknown
deriving DecidableEq, Repr

/-- What tells anonymous types apart: names and types of the fields, in order. -/
abbrev AnonymousKey := List (String × TypeId)

/-- The key that fields ask for. -/
def AnonymousKey.ofFields (fields : List AnonymousField) : AnonymousKey :=
  fields.map fun f => (f.name, f.type)

/-- What anonymous types with the same field names have in common. -/
structure Template where
  index : Nat
  fieldNames : List String
deriving DecidableEq, Repr

/-- The name of a template in the compiled program. -/
def Template.metadataName (t : Template) : String :=
  "<>f__AnonymousType" ++ toString t.index

/-- The names of the type parameters that stand for the types of the fields. -/
def Template.typeParameters (t : Template) : List String :=
  t.fieldNames.map fun name => "<" ++ name ++ ">j__TPar"

/-- The property of a field. -/
structure Property where
  name : String
  index : Nat
  type : TypeId
  owner : TypeId
deriving DecidableEq, Repr

/-- The constructor of an anonymous type. -/
structure Constructor where
  params : List TypeId
  owner : TypeId
deriving DecidableEq, Repr

/-- A method of an anonymous type. -/
structure Method where
  name : String
  params : List TypeId
  result : TypeId
  owner : TypeId
deriving DecidableEq, Repr

/-- A member of an anonymous type. -/
inductive AnonymousMember where
  | constructor (c : Constructor)
  | property (p : Property)
  | method (m : Method)
deriving DecidableEq, Repr

/-- The name of a member. -/
def AnonymousMember.name : AnonymousMember → String
  | constructor _ => ".ctor"
  | property p => p.name
  | method m => m.name

/-- An anonymous type with the place that first asked for it. -/
structure AnonymousType where
  template : Template
  id : TypeId
  span : Span
  properties : List Property
  constructor : Constructor
  methods : List Method
deriving DecidableEq, Repr

namespace AnonymousType

/-- The name of the type in the compiled program. -/
def name (a : AnonymousType) : String :=
  a.template.metadataName

/-- The key of the type. -/
def key (a : AnonymousType) : AnonymousKey :=
  a.properties.map fun p => (p.name, p.type)

/-- The members: the constructor, the properties, the methods. -/
def members (a : AnonymousType) : List AnonymousMember :=
  .constructor a.constructor :: a.properties.map .property ++ a.methods.map .method

/-- The members of a name. A property and a method may share theirs. -/
def membersNamed (a : AnonymousType) (name : String) : List AnonymousMember :=
  a.members.filter (·.name = name)

/-- The property of a name. -/
def propertyNamed? (a : AnonymousType) (name : String) : Option Property :=
  (a.membersNamed name).findSome? fun
    | .property p => some p
    | _ => none

end AnonymousType

end AnonymousObjects
