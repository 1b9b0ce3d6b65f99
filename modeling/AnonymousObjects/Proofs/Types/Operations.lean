import AnonymousObjects.Proofs.Types.Growth
import AnonymousObjects.Types.Registry

/-!
# Operations on tables and stores

A host may use a type table and a registry in any way: `Store.Operation` is one request that may
change them, and `Store.run` carries out any number of requests. A request that is refused changes
nothing. `Store.requests` lists the anonymous types that were asked for with success, and
`TypeTable.defs_after` says that no operation changes a type that is there.
-/

namespace AnonymousObjects

namespace TypeTable

/-- A request to a type table that may change it. -/
inductive Operation where
  | ensure (b : Builtin)
  | builtins
  | ensureError (name : String)
  | declareClass (name : String)
  | declareStruct (name : String) (restricted : Bool)
  | defineFields (id : TypeId) (fields : List FieldSchema)
  | pointerTo (target : TypeId)
  | nullableOf (inner : TypeId)
  | addAnonymous (name : String) (fields : List TypeId)
deriving DecidableEq, Repr

/-- The table that a request leaves: the one made, or the table itself if it is refused. -/
def left {ε : Type} (t : TypeTable) : Except ε (TypeId × TypeTable) → TypeTable
  | .ok (_, made) => made
  | .error _ => t

/-- The table after an operation. -/
def after (t : TypeTable) : Operation → TypeTable
  | .ensure b => (t.ensure b).2
  | .builtins => t.withBuiltins
  | .ensureError name => (t.ensureError name).2
  | .declareClass name => t.left (t.declareClass name)
  | .declareStruct name restricted => t.left (t.declareStruct name restricted)
  | .defineFields id fields => t.defineFields id fields
  | .pointerTo target => t.left (t.pointerTo target)
  | .nullableOf inner => t.left (t.nullableOf inner)
  | .addAnonymous name fields => (t.addAnonymous name fields).2

variable {t u : TypeTable}

/-- What is found or added comes after the others. -/
theorem defs_findOrAdd (t : TypeTable) (p : TypeDef → Bool) (d : TypeDef) :
    t.defs <+: (t.findOrAdd p d).2.defs := by
  obtain ⟨id, e, _, _, hfound⟩ | ⟨_, hadded⟩ := t.findOrAdd_cases p d
  · simp only [hfound, List.prefix_rfl]
  · rw [hadded]
    exact t.defs_add d

/-- A named type that is asked for comes after the others. -/
theorem defs_ensureNamed (t : TypeTable) (shape : TypeShape) (name : String) :
    t.defs <+: (t.ensureNamed shape name).2.defs := by
  unfold ensureNamed
  cases t.lookup name with
  | none => exact t.defs_add ⟨shape, name⟩
  | some id => exact List.prefix_rfl

/-- A builtin type that is asked for comes after the others. -/
theorem defs_ensure (t : TypeTable) (b : Builtin) : t.defs <+: (t.ensure b).2.defs :=
  t.defs_ensureNamed b.shape b.name

/-- The builtin types come after the others. -/
theorem defs_withBuiltins (t : TypeTable) : t.defs <+: t.withBuiltins.defs := by
  unfold withBuiltins
  induction Builtin.all generalizing t with
  | nil => exact List.prefix_rfl
  | cons b bs ih => exact (t.defs_ensure b).trans (ih (t.ensure b).2)

/-- A declared type comes after the others, and a refused one changes nothing. -/
theorem defs_left_declare (t : TypeTable) (shape : TypeShape) (name : String) :
    t.defs <+: (t.left (t.declare shape name)).defs := by
  unfold declare
  cases t.lookup name with
  | none => exact t.defs_add ⟨shape, name⟩
  | some id => exact List.prefix_rfl

/-- A pointer type comes after the others, and a refused one changes nothing. -/
theorem defs_left_pointerTo (t : TypeTable) (target : TypeId) :
    t.defs <+: (t.left (t.pointerTo target)).defs := by
  simp only [pointerTo, bind, Except.bind]
  cases t.get target with
  | error e => exact List.prefix_rfl
  | ok d => exact t.defs_findOrAdd _ _

/-- A nullable type comes after the others, and a refused one changes nothing. -/
theorem defs_left_nullableOf (t : TypeTable) (inner : TypeId) :
    t.defs <+: (t.left (t.nullableOf inner)).defs := by
  simp only [nullableOf, bind, Except.bind]
  cases t.get inner with
  | error e => exact List.prefix_rfl
  | ok d =>
      dsimp only
      split
      · exact t.defs_findOrAdd _ _
      · exact List.prefix_rfl

/-- No operation changes or removes a type. -/
theorem defs_after (t : TypeTable) (op : Operation) : t.defs <+: (t.after op).defs := by
  cases op with
  | ensure b => exact t.defs_ensure b
  | builtins => exact t.defs_withBuiltins
  | ensureError name => exact t.defs_findOrAdd _ _
  | declareClass name => exact t.defs_left_declare _ _
  | declareStruct name restricted => exact t.defs_left_declare _ _
  | defineFields id fields => exact List.prefix_rfl
  | pointerTo target => exact t.defs_left_pointerTo target
  | nullableOf inner => exact t.defs_left_nullableOf inner
  | addAnonymous name fields => exact t.defs_add _

end TypeTable

namespace Store

/-- A request to a store that may change it. -/
inductive Operation where
  | table (op : TypeTable.Operation)
  | intern (fields : List AnonymousField) (span : Span)
deriving DecidableEq, Repr

/-- The store after an operation. A request that is refused leaves it as it is. -/
def after (s : Store) : Operation → Store
  | .table op => { s with table := s.table.after op }
  | .intern fields span =>
    match s.intern fields span with
    | .ok (_, s') => s'
    | .error _ => s

/-- The anonymous type that an operation asks for, with the place that asks, unless it is
refused. -/
def request? (s : Store) : Operation → Option (AnonymousKey × Span)
  | .table _ => none
  | .intern fields span =>
    match s.intern fields span with
    | .ok _ => some (.ofFields fields, span)
    | .error _ => none

/-- The store after any number of operations. -/
def run (s : Store) : List Operation → Store
  | [] => s
  | op :: ops => run (s.after op) ops

/-- The anonymous types that operations ask for with success, in order. -/
def requests (s : Store) : List Operation → List (AnonymousKey × Span)
  | [] => []
  | op :: ops => (s.request? op).toList ++ requests (s.after op) ops

end Store

end AnonymousObjects
