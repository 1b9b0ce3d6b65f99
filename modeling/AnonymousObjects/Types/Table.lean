/-!
# The type table

A `TypeTable` holds the definition of every type that has come up, in order of creation, and a
`TypeId` says which one is meant. Named types, pointers, nullable types and error types are created
once and found again; `get?_add` and `get?_add_of_some` say that a new type leaves the others as
they are. The fields of declared types are kept beside the definitions.
-/

namespace AnonymousObjects

/-- A reference to a type. Types are numbered from 1 on in order of creation. -/
structure TypeId where
  number : Int
deriving DecidableEq, Repr

/-- The id of the type at an index of the list of definitions. -/
def TypeId.ofIndex (i : Nat) : TypeId :=
  ⟨i + 1⟩

/-- The index that an id refers to. -/
def TypeId.index? : TypeId → Option Nat
  | ⟨.ofNat (i + 1)⟩ => some i
  | _ => none

/-- The id of an index has that index. -/
@[simp] theorem TypeId.index?_ofIndex (i : Nat) : (ofIndex i).index? = some i := rfl

/-- The kinds of types, with the types that they are built from. -/
inductive TypeShape where
  | value
  | reference
  | void
  | pointer (target : TypeId)
  | restricted
  | nullable (inner : TypeId)
  | anonymous (fields : List TypeId)
  | error
deriving DecidableEq, Repr

namespace TypeShape

/-- The types that a type is built from. -/
def arguments : TypeShape → List TypeId
  | .pointer t | .nullable t => [t]
  | .anonymous ts => ts
  | .value | .reference | .void | .restricted | .error => []

/-- The types that are found by their names in source text. -/
def isNamed : TypeShape → Bool
  | .value | .reference | .void | .restricted => true
  | .pointer _ | .nullable _ | .anonymous _ | .error => false

/-- The type of no value. -/
def isVoid : TypeShape → Bool
  | .void => true
  | _ => false

/-- Pointers are unsafe. -/
def isUnsafe : TypeShape → Bool
  | .pointer _ => true
  | _ => false

/-- Types whose values live on the stack only. -/
def isRestricted : TypeShape → Bool
  | .restricted => true
  | _ => false

/-- Types that stand for mistakes. -/
def isError : TypeShape → Bool
  | .error => true
  | _ => false

/-- Types whose values are references. -/
def isReference : TypeShape → Bool
  | .reference | .anonymous _ => true
  | _ => false

/-- Types that have the null value. -/
def admitsNull : TypeShape → Bool
  | .reference | .anonymous _ | .nullable _ => true
  | _ => false

end TypeShape

/-- The definition of a type. -/
structure TypeDef where
  shape : TypeShape
  name : String
deriving DecidableEq, Repr

/-- A field of a declared type. -/
structure FieldSchema where
  name : String
  type : TypeId
  isStatic : Bool := false
deriving DecidableEq, Repr

/-- The types known by themselves. -/
inductive Builtin where
  | int
  | bool
  | string
  | object
  | void
deriving DecidableEq, Repr

namespace Builtin

/-- Every builtin type, in order of creation. -/
def all : List Builtin :=
  [.int, .bool, .string, .object, .void]

/-- The name of a builtin type. -/
def name : Builtin → String
  | int => "int"
  | bool => "bool"
  | string => "string"
  | object => "object"
  | void => "void"

/-- The kind of a builtin type. -/
def shape : Builtin → TypeShape
  | int | bool => .value
  | string | object => .reference
  | void => .void

end Builtin

/-- No type has this id. -/
structure UnknownType where
  id : TypeId
deriving DecidableEq, Repr

/-- A type of this name exists already. -/
structure AlreadyDeclared where
  name : String
deriving DecidableEq, Repr

/-- The message of a refused declaration. -/
def AlreadyDeclared.message (e : AlreadyDeclared) : String :=
  "type '" ++ e.name ++ "' is already declared"

/-- The definitions of types in order of creation, and the fields given to types, the latest
first. -/
structure TypeTable where
  defs : List TypeDef := []
  schemas : List (TypeId × List FieldSchema) := []
deriving DecidableEq, Repr

namespace TypeTable

/-! ## Looking types up -/

/-- The number of types. -/
def size (t : TypeTable) : Nat :=
  t.defs.length

/-- The definition of a type. -/
def get? (t : TypeTable) (id : TypeId) : Option TypeDef :=
  id.index?.bind (t.defs[·]?)

/-- The definition of a type, or the error that there is no such type. -/
def get (t : TypeTable) (id : TypeId) : Except UnknownType TypeDef :=
  match t.get? id with
  | some d => .ok d
  | none => .error ⟨id⟩

/-- The name that is shown for a type. -/
def display (t : TypeTable) (id : TypeId) : Except UnknownType String :=
  (·.name) <$> t.get id

/-- The kind of a type. -/
def shape (t : TypeTable) (id : TypeId) : Except UnknownType TypeShape :=
  (·.shape) <$> t.get id

/-- The first type with a property. -/
def find? (t : TypeTable) (p : TypeDef → Bool) : Option TypeId :=
  (t.defs.findIdx? p).map .ofIndex

/-- The type that a name in source text refers to. -/
def lookup (t : TypeTable) (name : String) : Option TypeId :=
  t.find? fun d => d.shape.isNamed && d.name == name

/-- The fields of a type. -/
def fieldsOf (t : TypeTable) (id : TypeId) : List FieldSchema :=
  ((t.schemas.find? (·.1 = id)).map (·.2)).getD []

/-- The first static, or instance, field of a name. -/
def findField (t : TypeTable) (id : TypeId) (name : String) (isStatic : Bool) :
    Option FieldSchema :=
  (t.fieldsOf id).find? fun f => f.name == name && f.isStatic == isStatic

/-- A type declares a field where it is the first of its name among the static, or the instance,
fields of the type. -/
def DeclaresField (t : TypeTable) (id : TypeId) (name : String) (isStatic : Bool)
    (field : FieldSchema) : Prop :=
  field.name = name ∧ field.isStatic = isStatic ∧
    ∃ before after, t.fieldsOf id = before ++ field :: after ∧
      ∀ f ∈ before, f.name = name → f.isStatic ≠ isStatic

/-- The field found is the one that the type declares. -/
theorem findField_eq_some_iff {t : TypeTable} {id : TypeId} {name : String} {isStatic : Bool}
    {field : FieldSchema} :
    t.findField id name isStatic = some field ↔ t.DeclaresField id name isStatic field := by
  simp only [findField, DeclaresField, List.find?_eq_some_iff_append, Bool.and_eq_true, beq_iff_eq,
    Bool.not_eq_true', Bool.and_eq_false_imp, beq_eq_false_iff_ne, and_assoc, ne_eq]

/-! ## Creating types -/

/-- A new type. -/
def add (t : TypeTable) (d : TypeDef) : TypeId × TypeTable :=
  (.ofIndex t.size, { t with defs := t.defs ++ [d] })

/-- The first type with a property, or else a new one. -/
def findOrAdd (t : TypeTable) (p : TypeDef → Bool) (d : TypeDef) : TypeId × TypeTable :=
  match t.find? p with
  | some id => (id, t)
  | none => t.add d

/-- The type of a name, created with a given kind if there is none. -/
def ensureNamed (t : TypeTable) (shape : TypeShape) (name : String) : TypeId × TypeTable :=
  match t.lookup name with
  | some id => (id, t)
  | none => t.add ⟨shape, name⟩

/-- A builtin type. -/
def ensure (t : TypeTable) (b : Builtin) : TypeId × TypeTable :=
  t.ensureNamed b.shape b.name

/-- The table with every builtin type. -/
def withBuiltins (t : TypeTable) : TypeTable :=
  Builtin.all.foldl (fun t b => (t.ensure b).2) t

/-- The error type of a name. -/
def ensureError (t : TypeTable) (name : String) : TypeId × TypeTable :=
  t.findOrAdd (fun d => d.shape.isError && d.name == name) ⟨.error, name⟩

/-- A declared type, unless its name is in use. -/
def declare (t : TypeTable) (shape : TypeShape) (name : String) :
    Except AlreadyDeclared (TypeId × TypeTable) :=
  match t.lookup name with
  | some _ => .error ⟨name⟩
  | none => .ok (t.add ⟨shape, name⟩)

/-- A declared class. -/
def declareClass (t : TypeTable) (name : String) : Except AlreadyDeclared (TypeId × TypeTable) :=
  t.declare .reference name

/-- A declared struct, which may be restricted to the stack. -/
def declareStruct (t : TypeTable) (name : String) (restricted : Bool) :
    Except AlreadyDeclared (TypeId × TypeTable) :=
  t.declare (if restricted then .restricted else .value) name

/-- The table after a type has got its fields, in place of those it had. -/
def defineFields (t : TypeTable) (id : TypeId) (fields : List FieldSchema) : TypeTable :=
  { t with schemas := (id, fields) :: t.schemas }

/-- The type of pointers to a type. -/
def pointerTo (t : TypeTable) (target : TypeId) : Except UnknownType (TypeId × TypeTable) := do
  let d ← t.get target
  pure (t.findOrAdd (·.shape = .pointer target) ⟨.pointer target, d.name ++ "*"⟩)

/-- The nullable type of a type, which is the type itself unless that is a value type. -/
def nullableOf (t : TypeTable) (inner : TypeId) : Except UnknownType (TypeId × TypeTable) := do
  let d ← t.get inner
  match d.shape with
  | .value => pure (t.findOrAdd (·.shape = .nullable inner) ⟨.nullable inner, d.name ++ "?"⟩)
  | _ => pure (inner, t)

/-- A new anonymous type with fields of given types. -/
def addAnonymous (t : TypeTable) (name : String) (fields : List TypeId) : TypeId × TypeTable :=
  t.add ⟨.anonymous fields, name⟩

/-! ## What a new type changes -/

/-- A new type has its definition. -/
theorem get?_add (t : TypeTable) (d : TypeDef) : (t.add d).2.get? (t.add d).1 = some d := by
  simp [add, get?, size]

/-- A new type leaves the types before it as they are. -/
theorem get?_add_of_some {t : TypeTable} {d e : TypeDef} {id : TypeId} (h : t.get? id = some e) :
    (t.add d).2.get? id = some e := by
  simp only [get?, Option.bind_eq_some_iff] at h ⊢
  obtain ⟨i, hi, hd⟩ := h
  refine ⟨i, hi, ?_⟩
  have hlt : i < t.defs.length := (List.getElem?_eq_some_iff.mp hd).1
  simp [add, List.getElem?_append_left hlt, hd]

end TypeTable

end AnonymousObjects
