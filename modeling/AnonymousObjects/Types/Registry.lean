import AnonymousObjects.Types.Anonymous

/-!
# The registry of anonymous types

Creations whose fields have the same names and types in the same order create the same type. The
`Registry` holds the types created so far and their templates, and a `Store` holds it together with
the table that the types are in. `Store.intern` finds the type of a list of fields or creates it.
-/

namespace AnonymousObjects

/-- The anonymous types in order of creation, and their templates, each at its index. -/
structure Registry where
  types : List AnonymousType := []
  templates : List Template := []
deriving DecidableEq, Repr

namespace Registry

/-- The type of a key. -/
def find? (r : Registry) (key : AnonymousKey) : Option AnonymousType :=
  r.types.find? (·.key = key)

/-- The type with an id. -/
def withId? (r : Registry) (id : TypeId) : Option AnonymousType :=
  r.types.find? (·.id = id)

/-- The template of a list of names, created with the next index if there is none. -/
def templateFor (r : Registry) (names : List String) : Template × Registry :=
  match r.templates.find? (·.fieldNames = names) with
  | some t => (t, r)
  | none =>
    let t : Template := ⟨r.templates.length, names⟩
    (t, { r with templates := r.templates ++ [t] })

end Registry

/-- The types and the anonymous types of a compilation. -/
structure Store where
  table : TypeTable := {}
  registry : Registry := {}
deriving DecidableEq, Repr

namespace Store

/-- The display names of the types of a key. A type that does not exist is an error. -/
def displays (t : TypeTable) : AnonymousKey → Except UnknownType (List String)
  | [] => pure []
  | (_, id) :: rest => do
    let shown ← t.display id
    let others ← displays t rest
    pure (shown :: others)

/-- The display name of an anonymous type whose fields have given names and shown types. -/
def displayName (names shown : List String) : String :=
  if names.isEmpty then "<empty anonymous type>"
  else
    let parts := List.zipWith (fun type name => type ++ " " ++ name) shown names
    "<anonymous type: " ++ String.intercalate ", " parts ++ ">"

/-- The properties of a key, numbered from an index on. -/
def properties (owner : TypeId) : Nat → AnonymousKey → List Property
  | _, [] => []
  | i, (name, type) :: rest => ⟨name, i, type, owner⟩ :: properties owner (i + 1) rest

/-- The methods of an anonymous type. The types in their signatures are created when needed. -/
def methods (t : TypeTable) (owner : TypeId) : List Method × TypeTable :=
  let (object, t) := t.ensure .object
  let (bool, t) := t.ensure .bool
  let (int, t) := t.ensure .int
  let (string, t) := t.ensure .string
  ([⟨"Equals", [object], bool, owner⟩, ⟨"GetHashCode", [], int, owner⟩,
    ⟨"ToString", [], string, owner⟩], t)

/-- A new anonymous type. Nothing changes when a type of the key does not exist. -/
def create (s : Store) (key : AnonymousKey) (span : Span) :
    Except UnknownType (AnonymousType × Store) := do
  let shown ← displays s.table key
  let names := key.map (·.1)
  let (template, registry) := s.registry.templateFor names
  let (id, table) := s.table.addAnonymous (displayName names shown) (key.map (·.2))
  let (methods, table) := methods table id
  let type : AnonymousType :=
    { template := template, id := id, span := span, properties := properties id 0 key
      constructor := ⟨key.map (·.2), id⟩, methods := methods }
  pure (type, ⟨table, { registry with types := registry.types ++ [type] }⟩)

/-- The anonymous type of a list of fields, created at the first request. -/
def intern (s : Store) (fields : List AnonymousField) (span : Span) :
    Except UnknownType (AnonymousType × Store) :=
  let key := AnonymousKey.ofFields fields
  match s.registry.find? key with
  | some type => pure (type, s)
  | none => s.create key span

end Store

end AnonymousObjects
