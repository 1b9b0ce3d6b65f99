import AnonymousObjects.Proofs.Types.Atomicity
import Mathlib.Data.Finmap

/-!
# Stores that keep dictionaries

A `TypeTable` searches one list of definitions, and a `Registry` its lists. A `KeyedStore` has a
counter for the ids of types instead and a dictionary for each way in which something is found:
definitions by id, types by name, by what they point to or add null to, fields by type, templates by
field names and anonymous types by their keys. Its attempts look things up, check and write in the
order of those of `Store`. `Refines` says that an attempt gives the answer of another and leaves a
store whose dictionaries have what the other leaves in its lists (`KeyedStore.Keeps`).

Every dictionary finds what the search finds because no type is found by two keys
(`TypeKey.eq_of_finds`), and because nothing is put under a key that finds something already.
`KeyedStore.attemptAll_keeps` is about any run from the empty store on.
-/

namespace AnonymousObjects

/-! ## Dictionaries -/

/-- Values under keys, in no order. -/
abbrev Dictionary (α β : Type) := Finmap fun _ : α => β

namespace Dictionary

variable {α β : Type} {d : Dictionary α β} {key : β → α} {xs : List β} {x : β}

/-- The number of values. -/
def size (d : Dictionary α β) : Nat :=
  Multiset.card d.entries

/-- A dictionary has the values of a list, each under its key. -/
def Lists (d : Dictionary α β) (key : β → α) (xs : List β) : Prop :=
  d.entries = ↑(xs.map fun x => (⟨key x, x⟩ : Sigma fun _ : α => β))

/-- No values, no list. -/
theorem Lists.empty : Lists ∅ key [] := rfl

/-- There are as many values as in the list. -/
theorem Lists.size_eq (h : d.Lists key xs) : d.size = xs.length := by
  rw [size, h, Multiset.coe_card, List.length_map]

variable [DecidableEq α]

/-- A new value may be put under a key that finds nothing. -/
theorem size_insert {k : α} (hk : d.lookup k = none) (x : β) :
    size (d.insert k x) = d.size + 1 := by
  rw [size, Finmap.entries_insert_of_notMem (Finmap.lookup_eq_none.mp hk), Multiset.card_cons, size]

/-- What is found under a key is the first of the list that has the key. -/
theorem Lists.lookup (h : d.Lists key xs) (k : α) : d.lookup k = xs.find? (key · = k) := by
  -- No two values of a dictionary have one key, so the first with the key is the only one.
  have hmem : ∀ x, d.lookup k = some x ↔ x ∈ xs ∧ key x = k := by
    intro x
    rw [Finmap.lookup_eq_some_iff, h, Multiset.mem_coe, List.mem_map]
    constructor
    · rintro ⟨y, hy, heq⟩
      cases heq
      exact ⟨hy, rfl⟩
    · rintro ⟨hx, rfl⟩
      exact ⟨x, hx, rfl⟩
  cases hfind : xs.find? (key · = k) with
  | some x =>
      have hkey : key x = k := by simpa using List.find?_some hfind
      exact (hmem x).mpr ⟨List.mem_of_find?_eq_some hfind, hkey⟩
  | none =>
      cases hlookup : d.lookup k with
      | none => rfl
      | some x =>
          obtain ⟨hx, hkey⟩ := (hmem x).mp hlookup
          simpa [hkey] using List.find?_eq_none.mp hfind x hx

/-- A value with a new key stands at the end of the list. -/
theorem Lists.insert (h : d.Lists key xs) (hx : d.lookup (key x) = none) :
    Lists (d.insert (key x) x) key (xs ++ [x]) := by
  rw [Lists, Finmap.entries_insert_of_notMem (Finmap.lookup_eq_none.mp hx), h, Multiset.cons_coe,
    Multiset.coe_eq_coe, List.map_append]
  exact (List.perm_append_singleton _ _).symm

end Dictionary

/-! ## Keys of types -/

/-- What a type is found by. -/
inductive TypeKey where
  | named (name : String)
  | error (name : String)
  | pointer (target : TypeId)
  | nullable (inner : TypeId)
deriving DecidableEq, Repr

/-- The types that a key finds. -/
def TypeKey.finds : TypeKey → TypeDef → Bool
  | .named name => fun d => d.shape.isNamed && d.name == name
  | .error name => fun d => d.shape.isError && d.name == name
  | .pointer target => (·.shape = .pointer target)
  | .nullable inner => (·.shape = .nullable inner)

/-- No type is found by two keys. -/
theorem TypeKey.eq_of_finds {k k' : TypeKey} {d : TypeDef} (h : k.finds d = true)
    (h' : k'.finds d = true) : k = k' := by
  obtain ⟨shape, name⟩ := d
  cases k <;> cases k' <;> cases shape <;>
    simp_all [finds, TypeShape.isNamed, TypeShape.isError]

namespace TypeTable

variable {t : TypeTable} {d : TypeDef}

/-- A new type does not change what is found by a property that it does not have. -/
theorem find?_add_of_eq_false {p : TypeDef → Bool} (hd : p d = false) :
    (t.add d).2.find? p = t.find? p := by
  simp [add, find?, List.findIdx?_append, hd]

/-- The other ids have the definitions that they had. -/
theorem get?_add_of_ne {id : TypeId} (h : id ≠ (t.add d).1) : (t.add d).2.get? id = t.get? id := by
  cases hold : t.get? id with
  | some e => exact get?_add_of_some hold
  | none =>
      refine Option.eq_none_iff_forall_ne_some.mpr fun e he => ?_
      rcases get?_add_cases he with hget | ⟨heq, -⟩
      · rw [hold] at hget
        cases hget
      · exact h heq

end TypeTable

/-! ## Tables -/

/-- A table with a dictionary for each way in which a type is found. -/
structure KeyedTable where
  defs : Dictionary TypeId TypeDef := ∅
  nextId : Int := 1
  named : Dictionary String TypeId := ∅
  fields : Dictionary TypeId (List FieldSchema) := ∅
  pointers : Dictionary TypeId TypeId := ∅
  nullables : Dictionary TypeId TypeId := ∅
  errors : Dictionary String TypeId := ∅

namespace KeyedTable

/-- The type that a key finds. -/
def foundBy (m : KeyedTable) : TypeKey → Option TypeId
  | .named name => m.named.lookup name
  | .error name => m.errors.lookup name
  | .pointer target => m.pointers.lookup target
  | .nullable inner => m.nullables.lookup inner

/-- The table in which a key finds a type. -/
def remember (m : KeyedTable) (id : TypeId) : TypeKey → KeyedTable
  | .named name => { m with named := m.named.insert name id }
  | .error name => { m with errors := m.errors.insert name id }
  | .pointer target => { m with pointers := m.pointers.insert target id }
  | .nullable inner => { m with nullables := m.nullables.insert inner id }

/-- A new type. -/
def add (m : KeyedTable) (d : TypeDef) : TypeId × KeyedTable :=
  (⟨m.nextId⟩, { m with defs := m.defs.insert ⟨m.nextId⟩ d, nextId := m.nextId + 1 })

/-- A new type that a key finds from now on. -/
def addAs (m : KeyedTable) (k : TypeKey) (d : TypeDef) : TypeId × KeyedTable :=
  let (id, m) := m.add d
  (id, m.remember id k)

/-- The type that a key finds, or else a new one. -/
def findOrAdd (m : KeyedTable) (k : TypeKey) (d : TypeDef) : TypeId × KeyedTable :=
  match m.foundBy k with
  | some id => (id, m)
  | none => m.addAs k d

/-- A builtin type. -/
def ensure (m : KeyedTable) (b : Builtin) : TypeId × KeyedTable :=
  m.findOrAdd (.named b.name) ⟨b.shape, b.name⟩

/-- The error type of a name. -/
def ensureError (m : KeyedTable) (name : String) : TypeId × KeyedTable :=
  m.findOrAdd (.error name) ⟨.error, name⟩

/-- The table with every builtin type. -/
def withBuiltins (m : KeyedTable) : KeyedTable :=
  Builtin.all.foldl (fun m b => (m.ensure b).2) m

/-- The table after a type has got its fields. -/
def defineFields (m : KeyedTable) (id : TypeId) (fields : List FieldSchema) : KeyedTable :=
  { m with fields := m.fields.insert id fields }

/-- The fields of a type. -/
def fieldsOf (m : KeyedTable) (id : TypeId) : List FieldSchema :=
  (m.fields.lookup id).getD []

/-- A key that finds a type does not change the definitions. -/
@[simp] theorem defs_remember (m : KeyedTable) (id : TypeId) (k : TypeKey) :
    (m.remember id k).defs = m.defs := by
  cases k <;> rfl

/-- A key that finds a type does not change the next id. -/
@[simp] theorem nextId_remember (m : KeyedTable) (id : TypeId) (k : TypeKey) :
    (m.remember id k).nextId = m.nextId := by
  cases k <;> rfl

/-- A key that finds a type does not change the fields. -/
@[simp] theorem fields_remember (m : KeyedTable) (id : TypeId) (k : TypeKey) :
    (m.remember id k).fields = m.fields := by
  cases k <;> rfl

/-- A new type alone is found by no key. -/
@[simp] theorem foundBy_add (m : KeyedTable) (d : TypeDef) (k : TypeKey) :
    (m.add d).2.foundBy k = m.foundBy k := by
  cases k <;> rfl

/-- Fields are no way to find a type. -/
@[simp] theorem foundBy_defineFields (m : KeyedTable) (id : TypeId) (fields : List FieldSchema)
    (k : TypeKey) : (m.defineFields id fields).foundBy k = m.foundBy k := by
  cases k <;> rfl

/-- A key finds the type that was put under it last. -/
@[simp] theorem foundBy_remember (m : KeyedTable) (id : TypeId) (k : TypeKey) :
    (m.remember id k).foundBy k = some id := by
  cases k <;> exact Finmap.lookup_insert _

/-- The other keys find what they found. -/
theorem foundBy_remember_of_ne (m : KeyedTable) (id : TypeId) {k k' : TypeKey} (h : k' ≠ k) :
    (m.remember id k).foundBy k' = m.foundBy k' := by
  cases k <;> cases k' <;> first
    | rfl
    | exact Finmap.lookup_insert_of_ne _ fun heq => h (congrArg _ heq)

/-- The dictionaries of a table find what another one finds by searching. -/
structure Keeps (m : KeyedTable) (t : TypeTable) : Prop where
  nextId : m.nextId = t.size + 1
  defs : ∀ id, m.defs.lookup id = t.get? id
  size : m.defs.size = t.size
  found : ∀ k, m.foundBy k = t.find? k.finds
  fields : ∀ id, m.fieldsOf id = t.fieldsOf id

variable {m : KeyedTable} {t : TypeTable} {d : TypeDef} {k : TypeKey}

/-- A table with no types keeps none. -/
theorem Keeps.empty : Keeps {} {} where
  nextId := rfl
  defs := by
    intro id
    simp [TypeTable.get?]
  size := rfl
  found := by
    intro k
    cases k <;> rfl
  fields _ := rfl

/-- A new type gets the same id. -/
theorem Keeps.id_add (h : m.Keeps t) (d : TypeDef) : (m.add d).1 = (t.add d).1 := by
  show (⟨m.nextId⟩ : TypeId) = ⟨t.size + 1⟩
  rw [h.nextId]

/-- A new type is kept as long as the keys find it where the search does. -/
theorem Keeps.added (h : m.Keeps t) {m' : KeyedTable} (hdefs : m'.defs = (m.add d).2.defs)
    (hnext : m'.nextId = (m.add d).2.nextId) (hfields : m'.fields = m.fields)
    (hfound : ∀ k, m'.foundBy k = (t.add d).2.find? k.finds) : m'.Keeps (t.add d).2 where
  nextId := by
    rw [hnext]
    show m.nextId + 1 = ((t.defs ++ [d]).length : Int) + 1
    rw [h.nextId, TypeTable.size, List.length_append]
    simp
  defs id := by
    rw [hdefs]
    show (m.defs.insert (m.add d).1 d).lookup id = _
    rw [h.id_add]
    by_cases hid : id = (t.add d).1
    · rw [hid, Finmap.lookup_insert, TypeTable.get?_add]
    · rw [Finmap.lookup_insert_of_ne _ hid, h.defs, TypeTable.get?_add_of_ne hid]
  size := by
    -- Ids count the types there are, so the next one has no definition that would be overwritten.
    have hfresh : m.defs.lookup (m.add d).1 = none := by
      rw [h.defs, h.id_add]
      exact Option.eq_none_iff_forall_ne_some.mpr fun e he => TypeTable.not_has_add t d ⟨e, he⟩
    rw [hdefs]
    show Dictionary.size (m.defs.insert (m.add d).1 d) = (t.defs ++ [d]).length
    rw [Dictionary.size_insert hfresh, h.size, List.length_append]
    rfl
  found := hfound
  fields id := by
    rw [fieldsOf, hfields]
    exact h.fields id

/-- A type that no key finds may be added. -/
theorem Keeps.add (h : m.Keeps t) (hd : ∀ k : TypeKey, k.finds d = false) :
    (m.add d).2.Keeps (t.add d).2 := by
  refine h.added rfl rfl rfl ?_
  intro k
  rw [foundBy_add, TypeTable.find?_add_of_eq_false (hd k)]
  exact h.found k

/-- A type may be added under a key that finds it and has found nothing. -/
theorem Keeps.addAs (h : m.Keeps t) (hd : k.finds d = true) (hk : t.find? k.finds = none) :
    (m.addAs k d).1 = (t.add d).1 ∧ (m.addAs k d).2.Keeps (t.add d).2 := by
  refine ⟨h.id_add d, h.added (defs_remember _ _ k) (nextId_remember _ _ k) ?_ ?_⟩
  · exact fields_remember _ _ k
  · intro k'
    show ((m.add d).2.remember (m.add d).1 k).foundBy k' = _
    by_cases heq : k' = k
    -- The search finds the new type only because it found none before; otherwise the dictionary
    -- would forget a type that the list still finds.
    · have hfound := TypeTable.find?_findOrAdd t hd
      rw [TypeTable.findOrAdd, hk] at hfound
      rw [heq, foundBy_remember, h.id_add]
      exact hfound.symm
    -- No other key finds the new type, so its dictionary needs no entry for it.
    · have hother : k'.finds d = false :=
        Bool.eq_false_iff.mpr fun hd' => heq (TypeKey.eq_of_finds hd' hd)
      rw [foundBy_remember_of_ne _ _ heq, foundBy_add, TypeTable.find?_add_of_eq_false hother]
      exact h.found k'

/-- A type is found, or added, as by the search. -/
theorem Keeps.findOrAdd (h : m.Keeps t) (hd : k.finds d = true) :
    (m.findOrAdd k d).1 = (t.findOrAdd k.finds d).1 ∧
      (m.findOrAdd k d).2.Keeps (t.findOrAdd k.finds d).2 := by
  unfold KeyedTable.findOrAdd TypeTable.findOrAdd
  rw [h.found]
  cases hk : t.find? k.finds with
  | some id => exact ⟨rfl, h⟩
  | none => exact h.addAs hd hk

/-- The builtin types may be asked for. -/
theorem Keeps.ensure (h : m.Keeps t) (b : Builtin) :
    (m.ensure b).1 = (t.ensure b).1 ∧ (m.ensure b).2.Keeps (t.ensure b).2 :=
  have hfinds : TypeKey.finds (.named b.name) ⟨b.shape, b.name⟩ = true := by
    cases b <;> simp [TypeKey.finds, Builtin.shape, TypeShape.isNamed]
  h.findOrAdd hfinds

/-- Every builtin type may be asked for at once. -/
theorem Keeps.withBuiltins (h : m.Keeps t) : m.withBuiltins.Keeps t.withBuiltins := by
  unfold KeyedTable.withBuiltins TypeTable.withBuiltins
  induction Builtin.all generalizing m t with
  | nil => exact h
  | cons b bs ih => exact ih (h.ensure b).2

/-- A type may get other fields. -/
theorem Keeps.defineFields (h : m.Keeps t) (id : TypeId) (fields : List FieldSchema) :
    (m.defineFields id fields).Keeps (t.defineFields id fields) where
  nextId := h.nextId
  defs := h.defs
  size := h.size
  found k := (foundBy_defineFields m id fields k).trans (h.found k)
  fields id' := by
    show ((m.fields.insert id fields).lookup id').getD [] = _
    by_cases heq : id' = id
    · rw [heq, Finmap.lookup_insert]
      simp [TypeTable.defineFields, TypeTable.fieldsOf]
    · rw [Finmap.lookup_insert_of_ne _ heq]
      have hother := h.fields id'
      simpa [fieldsOf, TypeTable.defineFields, TypeTable.fieldsOf, Ne.symm heq] using hother

end KeyedTable

/-! ## Stores -/

/-- A table with dictionaries, and the templates and anonymous types under their keys. -/
structure KeyedStore where
  table : KeyedTable := {}
  templates : Dictionary (List String) Template := ∅
  symbols : Dictionary AnonymousKey AnonymousType := ∅

/-- The dictionaries of a store have what another one lists. -/
structure KeyedStore.Keeps (m : KeyedStore) (s : Store) : Prop where
  table : m.table.Keeps s.table
  templates : m.templates.Lists (·.fieldNames) s.registry.templates
  symbols : m.symbols.Lists (·.key) s.registry.types

/-- A store with nothing in it keeps nothing. -/
theorem KeyedStore.Keeps.empty : Keeps {} {} :=
  ⟨.empty, .empty, .empty⟩

/-- A computation that changes a store with dictionaries step by step and may be refused on the
way. -/
abbrev KeyedAttempt (α : Type) := ExceptT Objection (StateM KeyedStore) α

namespace KeyedAttempt

variable {α β : Type}

/-- Looks something up. -/
def look (f : KeyedStore → α) : KeyedAttempt α := fun m => (.ok (f m), m)

/-- Writes to the store. -/
def write (f : KeyedStore → α × KeyedStore) : KeyedAttempt α := fun m => (.ok (f m).1, (f m).2)

/-- Writes to the table. -/
def writeTable (f : KeyedTable → α × KeyedTable) : KeyedAttempt α :=
  write fun m => ((f m.table).1, { m with table := (f m.table).2 })

/-- The definition of a type. -/
def definition (id : TypeId) : KeyedAttempt TypeDef := fun m =>
  match m.table.defs.lookup id with
  | some d => (.ok d, m)
  | none => (.error (.unknown ⟨id⟩), m)

/-- Refuses. -/
def refuse (r : Objection) : KeyedAttempt α := fun m => (.error r, m)

/-- What runs after an attempt runs on the store that it leaves. -/
theorem bind_apply (x : KeyedAttempt α) (f : α → KeyedAttempt β) (m : KeyedStore) :
    (x >>= f) m = ExceptT.bindCont f (x m).1 (x m).2 := rfl

/-- A function of a result changes nothing more. -/
theorem map_apply (g : α → β) (x : KeyedAttempt α) (m : KeyedStore) :
    (g <$> x : KeyedAttempt β) m = ((x m).1.map g, (x m).2) := by
  show ExceptT.bindCont (fun a => (pure (g a) : KeyedAttempt β)) (x m).1 (x m).2 = _
  cases (x m).1 <;> rfl

end KeyedAttempt

/-! ## Requests step by step -/

open KeyedAttempt (look write writeTable definition refuse)

namespace KeyedTable

/-- Declares a type. -/
def declareAttempt (shape : TypeShape) (name : String) : KeyedAttempt TypeId := do
  match ← look (·.table.foundBy (.named name)) with
  | some _ => refuse (.declared ⟨name⟩)
  | none => writeTable (·.addAs (.named name) ⟨shape, name⟩)

/-- The type of pointers to a type. -/
def pointerAttempt (target : TypeId) : KeyedAttempt TypeId := do
  match ← look (·.table.foundBy (.pointer target)) with
  | some id => pure id
  | none => do
    let d ← definition target
    writeTable (·.addAs (.pointer target) ⟨.pointer target, d.name ++ "*"⟩)

/-- The nullable type of a type. -/
def nullableAttempt (inner : TypeId) : KeyedAttempt TypeId := do
  let d ← definition inner
  match d.shape with
  | .value => do
    match ← look (·.table.foundBy (.nullable inner)) with
    | some id => pure id
    | none => do
      let d ← definition inner
      writeTable (·.addAs (.nullable inner) ⟨.nullable inner, d.name ++ "?"⟩)
  | _ => pure inner

/-- A request to the table. -/
def attempt : TypeTable.Operation → KeyedAttempt Answer
  | .ensure b => .type <$> writeTable (·.ensure b)
  | .builtins => writeTable fun m => (.done, m.withBuiltins)
  | .ensureError name => .type <$> writeTable (·.ensureError name)
  | .declareClass name => .type <$> declareAttempt .reference name
  | .declareStruct name restricted =>
    .type <$> declareAttempt (if restricted then .restricted else .value) name
  | .defineFields id fields => writeTable fun m => (.done, m.defineFields id fields)
  | .pointerTo target => .type <$> pointerAttempt target
  | .nullableOf inner => .type <$> nullableAttempt inner
  | .addAnonymous name fields => .type <$> writeTable (·.add ⟨.anonymous fields, name⟩)

end KeyedTable

namespace KeyedStore

/-- The template of a list of names, created with the next index if there is none. -/
def templateFor (m : KeyedStore) (names : List String) : Template × KeyedStore :=
  match m.templates.lookup names with
  | some t => (t, m)
  | none =>
    let t : Template := ⟨Dictionary.size m.templates, names⟩
    (t, { m with templates := m.templates.insert names t })

/-- Checks that the types of a key exist. -/
def checkAttempt : AnonymousKey → KeyedAttempt Unit
  | [] => pure ()
  | (_, id) :: rest => do
    let _ ← definition id
    checkAttempt rest

/-- The display names of the types of a key. -/
def showAttempt : AnonymousKey → KeyedAttempt (List String)
  | [] => pure []
  | (_, id) :: rest => do
    let d ← definition id
    let others ← showAttempt rest
    pure (d.name :: others)

/-- A new anonymous type. -/
def createAttempt (key : AnonymousKey) (span : Span) : KeyedAttempt AnonymousType := do
  checkAttempt key
  let template ← write (·.templateFor (key.map (·.1)))
  let shown ← showAttempt key
  let id ← writeTable
    (·.add ⟨.anonymous (key.map (·.2)), Store.displayName (key.map (·.1)) shown⟩)
  let object ← writeTable (·.ensure .object)
  let bool ← writeTable (·.ensure .bool)
  let int ← writeTable (·.ensure .int)
  let string ← writeTable (·.ensure .string)
  let type : AnonymousType :=
    { template := template, id := id, span := span, properties := Store.properties id 0 key
      constructor := ⟨key.map (·.2), id⟩
      methods := [⟨"Equals", [object], bool, id⟩, ⟨"GetHashCode", [], int, id⟩,
        ⟨"ToString", [], string, id⟩] }
  write fun m => (type, { m with symbols := m.symbols.insert key type })

/-- The anonymous type of a list of fields. -/
def internAttempt (fields : List AnonymousField) (span : Span) : KeyedAttempt AnonymousType := do
  match ← look (·.symbols.lookup (.ofFields fields)) with
  | some type => pure type
  | none => createAttempt (.ofFields fields) span

/-- A request to a store. -/
def attempt : Store.Operation → KeyedAttempt Answer
  | .table op => KeyedTable.attempt op
  | .intern fields span => .anonymous <$> internAttempt fields span

/-- Any number of requests, with the answer to each. -/
def attemptAll : List Store.Operation → StateM KeyedStore (List (Except Objection Answer))
  | [] => fun m => ([], m)
  | op :: ops => fun m =>
    let later := attemptAll ops (attempt op m).2
    ((attempt op m).1 :: later.1, later.2)

end KeyedStore

/-! ## Corresponding attempts -/

/-- From corresponding stores, `x` gives the answer of `y` and leaves a store that corresponds to
that of `y`. `P` holds of the store before `y`, and `Q` of its answer and of the store after it. -/
def Refines {α : Type} (P : Store → Prop) (x : KeyedAttempt α) (y : Attempt α)
    (Q : α → Store → Prop) : Prop :=
  ∀ m s, KeyedStore.Keeps m s → P s →
    (x m).1 = (y s).1 ∧ (x m).2.Keeps (y s).2 ∧ ∀ a, (y s).1 = .ok a → Q a (y s).2

/-- `x` gives the answer of `y` from any corresponding stores. -/
def Agrees {α : Type} (x : KeyedAttempt α) (y : Attempt α) : Prop :=
  Refines (fun _ => True) x y fun _ _ => True

namespace Refines

variable {α β : Type} {P : Store → Prop} {Q : α → Store → Prop} {R : β → Store → Prop}
  {x : KeyedAttempt α} {y : Attempt α}

/-- One step after another. -/
theorem bind {f : α → KeyedAttempt β} {g : α → Attempt β} (hx : Refines P x y Q)
    (hf : ∀ a, Refines (Q a) (f a) (g a) R) : Refines P (x >>= f) (y >>= g) R := by
  intro m s h hP
  obtain ⟨hanswer, hkeeps, hQ⟩ := hx m s h hP
  rw [KeyedAttempt.bind_apply, Attempt.bind_apply, hanswer]
  cases hy : (y s).1 with
  | error r => exact ⟨rfl, hkeeps, nofun⟩
  | ok a => exact hf a _ _ hkeeps (hQ a hy)

/-- No step at all. -/
theorem pure (a : α) (hQ : ∀ s, P s → Q a s) :
    Refines P (Pure.pure a : KeyedAttempt α) (Pure.pure a : Attempt α) Q := by
  intro m s h hP
  refine ⟨rfl, h, ?_⟩
  rintro _ ⟨⟩
  exact hQ s hP

/-- What holds before a look-up holds after it, and what was looked up is known. -/
theorem look {f : KeyedStore → α} {g : Store → α} (h : ∀ m s, KeyedStore.Keeps m s → f m = g s) :
    Refines P (KeyedAttempt.look f) (Attempt.look g) fun a s => P s ∧ g s = a := by
  intro m s hkeeps hP
  refine ⟨congrArg Except.ok (h m s hkeeps), hkeeps, ?_⟩
  rintro _ ⟨⟩
  exact ⟨hP, rfl⟩

/-- The definition of a type is that of the list. -/
theorem definition (id : TypeId) :
    Refines P (KeyedAttempt.definition id) (Attempt.definition id) fun _ => P := by
  intro m s h hP
  have hdefs := h.table.defs id
  cases hget : s.table.get? id with
  | some d =>
      rw [Attempt.definition_of_some hget]
      rw [hget] at hdefs
      simp only [KeyedAttempt.definition, hdefs]
      exact ⟨trivial, h, fun _ _ => hP⟩
  | none =>
      rw [Attempt.definition_of_none hget]
      rw [hget] at hdefs
      simp only [KeyedAttempt.definition, hdefs]
      exact ⟨trivial, h, nofun⟩

/-- A refusal. -/
theorem refuse (r : Objection) : Refines P (KeyedAttempt.refuse r) (Attempt.refuse r) Q :=
  fun _ _ h _ => ⟨rfl, h, nofun⟩

/-- A write to corresponding stores leaves corresponding stores. -/
theorem write {f : KeyedStore → α × KeyedStore} {g : Store → α × Store}
    (h : ∀ m s, KeyedStore.Keeps m s → P s →
      (f m).1 = (g s).1 ∧ (f m).2.Keeps (g s).2 ∧ Q (g s).1 (g s).2) :
    Refines P (KeyedAttempt.write f) (Attempt.write g) Q := by
  intro m s hkeeps hP
  obtain ⟨hanswer, hleft, hQ⟩ := h m s hkeeps hP
  refine ⟨congrArg Except.ok hanswer, hleft, ?_⟩
  rintro _ ⟨⟩
  exact hQ

/-- A write to corresponding tables leaves what is kept of the registry. -/
theorem writeTable {f : KeyedTable → α × KeyedTable} {g : TypeTable → α × TypeTable}
    (h : ∀ m s, KeyedTable.Keeps m s.table → P s →
      (f m).1 = (g s.table).1 ∧ (f m).2.Keeps (g s.table).2)
    (hQ : ∀ a s table, P s → Q a { s with table := table }) :
    Refines P (KeyedAttempt.writeTable f) (Attempt.writeTable g) Q := by
  refine write ?_
  intro m s hkeeps hP
  obtain ⟨hanswer, htable⟩ := h _ s hkeeps.table hP
  exact ⟨hanswer, ⟨htable, hkeeps.templates, hkeeps.symbols⟩, hQ _ s _ hP⟩

end Refines

namespace Agrees

variable {α β : Type} {x : KeyedAttempt α} {y : Attempt α}

/-- Another form of the answer. -/
theorem map (f : α → β) (h : Agrees x y) : Agrees (f <$> x) (f <$> y) := by
  intro m s hkeeps hs
  obtain ⟨hanswer, hleft, -⟩ := h m s hkeeps hs
  rw [KeyedAttempt.map_apply, Attempt.map_apply, hanswer]
  exact ⟨rfl, hleft, fun _ _ => trivial⟩

/-- A write to corresponding tables has the same answer. -/
theorem writeTable {f : KeyedTable → α × KeyedTable} {g : TypeTable → α × TypeTable}
    (h : ∀ m t, KeyedTable.Keeps m t → (f m).1 = (g t).1 ∧ (f m).2.Keeps (g t).2) :
    Agrees (KeyedAttempt.writeTable f) (Attempt.writeTable g) :=
  Refines.writeTable (fun m s hkeeps _ => h m s.table hkeeps) fun _ _ _ _ => trivial

end Agrees

/-! ## Requests to tables -/

namespace KeyedTable

/-- A declaration looks its name up where the other searches for it. -/
theorem declareAttempt_agrees {shape : TypeShape} (hshape : shape.isNamed = true)
    (name : String) : Agrees (declareAttempt shape name) (TypeTable.declareAttempt shape name) := by
  refine .bind (.look fun m s h => h.table.found (.named name)) ?_
  intro found
  cases found with
  | some id => exact .refuse _
  | none =>
      refine .writeTable ?_ fun _ _ _ _ => trivial
      -- That the name is free was seen by the look-up, and nothing has been written since.
      intro m s h ⟨_, hfree⟩
      exact h.addAs (by simp [TypeKey.finds, hshape]) hfree

/-- A pointer type is looked up by its target where the other searches for it. -/
theorem pointerAttempt_agrees (target : TypeId) :
    Agrees (pointerAttempt target) (TypeTable.pointerAttempt target) := by
  refine .bind (.look fun m s h => h.table.found (.pointer target)) ?_
  intro found
  cases found with
  | some id => exact .pure id fun _ _ => trivial
  | none =>
      refine .bind (.definition target) fun d => .writeTable ?_ fun _ _ _ _ => trivial
      intro m s h ⟨_, hfree⟩
      exact h.addAs (by simp [TypeKey.finds]) hfree

/-- A nullable type is looked up by the type inside it where the other searches for it. -/
theorem nullableAttempt_agrees (inner : TypeId) :
    Agrees (nullableAttempt inner) (TypeTable.nullableAttempt inner) := by
  refine .bind (.definition inner) fun ⟨shape, shown⟩ => ?_
  cases shape with
  | value =>
      refine .bind (.look fun m s h => h.table.found (.nullable inner)) ?_
      intro found
      cases found with
      | some id => exact .pure id fun _ _ => trivial
      | none =>
          refine .bind (.definition inner) fun d => .writeTable ?_ fun _ _ _ _ => trivial
          intro m s h ⟨_, hfree⟩
          exact h.addAs (by simp [TypeKey.finds]) hfree
  | _ => exact .pure inner fun _ _ => trivial

/-- A request to a table with dictionaries gives the answer of the one that searches. -/
theorem attempt_agrees (op : TypeTable.Operation) : Agrees (attempt op) (TypeTable.attempt op) := by
  cases op with
  | ensure b => exact .map _ (.writeTable fun _ _ h => h.ensure b)
  | builtins => exact .writeTable fun _ _ h => ⟨rfl, h.withBuiltins⟩
  | ensureError name =>
      refine .map _ (.writeTable fun _ _ h => h.findOrAdd ?_)
      simp [TypeKey.finds, TypeShape.isError]
  | declareClass name => exact .map _ (declareAttempt_agrees rfl name)
  | declareStruct name restricted =>
      exact .map _ (declareAttempt_agrees (by cases restricted <;> rfl) name)
  | defineFields id fields => exact .writeTable fun _ _ h => ⟨rfl, h.defineFields id fields⟩
  | pointerTo target => exact .map _ (pointerAttempt_agrees target)
  | nullableOf inner => exact .map _ (nullableAttempt_agrees inner)
  | addAnonymous name fields =>
      refine .map _ (.writeTable fun _ _ h => ⟨h.id_add _, h.add fun k => ?_⟩)
      cases k <;> rfl

end KeyedTable

/-! ## Requests to stores -/

namespace KeyedStore

variable {P : Store → Prop}

/-- Templates are numbered alike. -/
theorem Keeps.templateFor {m : KeyedStore} {s : Store} (h : m.Keeps s) (names : List String) :
    (m.templateFor names).1 = (s.registry.templateFor names).1 ∧
      (m.templateFor names).2.Keeps { s with registry := (s.registry.templateFor names).2 } := by
  unfold KeyedStore.templateFor Registry.templateFor
  rw [h.templates.lookup names]
  cases hfind : s.registry.templates.find? (·.fieldNames = names) with
  | some t => exact ⟨rfl, h⟩
  | none =>
      have hfree := (h.templates.lookup names).trans hfind
      dsimp only
      rw [h.templates.size_eq]
      let t : Template := ⟨s.registry.templates.length, names⟩
      exact ⟨rfl, h.table, h.templates.insert (x := t) hfree, h.symbols⟩

/-- The types of a key are checked alike, and nothing is written. -/
theorem checkAttempt_refines (key : AnonymousKey) :
    Refines P (checkAttempt key) (Store.checkAttempt key) fun _ => P := by
  induction key with
  | nil => exact .pure () fun _ h => h
  | cons pair rest ih => exact .bind (.definition pair.2) fun _ => ih

/-- The types of a key are shown alike, and nothing is written. -/
theorem showAttempt_refines (key : AnonymousKey) :
    Refines P (showAttempt key) (Store.showAttempt key) fun _ => P := by
  induction key with
  | nil => exact .pure [] fun _ h => h
  | cons pair rest ih =>
      refine .bind (.definition pair.2) fun d => .bind ih fun others => ?_
      exact .pure (d.name :: others) fun _ h => h

/-- No type has the key. -/
def Free (key : AnonymousKey) (s : Store) : Prop :=
  s.registry.find? key = none

/-- A new template is no type. -/
theorem types_templateFor (r : Registry) (names : List String) :
    (r.templateFor names).2.types = r.types := by
  obtain ⟨t, -, -, hfound⟩ | ⟨-, hadded⟩ := r.templateFor_cases names
  · rw [hfound]
  · rw [hadded]

/-- A type may be put under its key when no type has that key. -/
theorem Keeps.create {m : KeyedStore} {s : Store} (h : m.Keeps s) {key : AnonymousKey}
    {a : AnonymousType} (hkey : a.key = key) (hfree : Free key s) :
    Keeps { m with symbols := m.symbols.insert key a }
      { s with registry := { s.registry with types := s.registry.types ++ [a] } } := by
  subst hkey
  exact ⟨h.table, h.templates, h.symbols.insert ((h.symbols.lookup a.key).trans hfree)⟩

/-- A type is created alike for a key that no type has. -/
theorem createAttempt_refines (key : AnonymousKey) (span : Span) :
    Refines (Free key) (createAttempt key span) (Store.createAttempt key span)
      fun _ _ => True := by
  have hensure : ∀ b : Builtin,
      Refines (Free key) (writeTable (·.ensure b)) (Attempt.writeTable (·.ensure b))
        fun _ => Free key := by
    intro b
    exact .writeTable (fun _ _ h _ => h.ensure b) fun _ _ _ hfree => hfree
  -- The key must still be free when the type is put under it, behind all the steps in between. The
  -- template is written to the registry, but is no type; the others write to the table.
  refine .bind (checkAttempt_refines key) fun _ => ?_
  refine .bind (Q := fun _ => Free key) (.write ?_) fun template => ?_
  · intro m s h hfree
    obtain ⟨htemplate, hleft⟩ := h.templateFor (key.map (·.1))
    refine ⟨htemplate, hleft, ?_⟩
    show (s.registry.templateFor (key.map (·.1))).2.types.find? (·.key = key) = none
    rw [types_templateFor]
    exact hfree
  refine .bind (showAttempt_refines key) fun shown => ?_
  refine .bind (Q := fun _ => Free key) (.writeTable ?_ fun _ _ _ hfree => hfree) fun id => ?_
  · intro m s h _
    refine ⟨h.id_add _, h.add fun k => ?_⟩
    cases k <;> rfl
  refine .bind (hensure .object) fun object => .bind (hensure .bool) fun bool => ?_
  refine .bind (hensure .int) fun int => .bind (hensure .string) fun string => .write ?_
  intro m s h hfree
  exact ⟨rfl, h.create (Store.key_properties id 0 key) hfree, trivial⟩

/-- A request to a store with dictionaries gives the answer of the one that searches. -/
theorem attempt_agrees (op : Store.Operation) : Agrees (attempt op) (Store.attempt op) := by
  cases op with
  | table op => exact KeyedTable.attempt_agrees op
  | intern fields span =>
      refine .map _ (.bind (.look fun m s h => h.symbols.lookup (.ofFields fields)) ?_)
      intro found
      cases found with
      | some type => exact .pure type fun _ _ => trivial
      | none =>
          intro m s h ⟨_, hfree⟩
          exact createAttempt_refines _ span m s h hfree

/-- Requests made one after the other get the same answers from corresponding stores. -/
theorem Keeps.attemptAll {m : KeyedStore} {s : Store} (h : m.Keeps s)
    (ops : List Store.Operation) :
    (KeyedStore.attemptAll ops m).1 = (Store.attemptAll ops s).1 ∧
      (KeyedStore.attemptAll ops m).2.Keeps (Store.attemptAll ops s).2 := by
  induction ops generalizing m s with
  | nil => exact ⟨rfl, h⟩
  | cons op ops ih =>
      obtain ⟨hanswer, hkeeps, -⟩ := attempt_agrees op m s h trivial
      obtain ⟨hanswers, hleft⟩ := ih hkeeps
      exact ⟨congrArg₂ List.cons hanswer hanswers, hleft⟩

/-- Whatever is asked of a new store with dictionaries, it gives the answers of the store that
searches its lists, refusals included, and keeps what that store holds. -/
theorem attemptAll_keeps (ops : List Store.Operation) :
    (attemptAll ops {}).1 = (Store.attemptAll ops {}).1 ∧
      (attemptAll ops {}).2.Keeps (Store.run {} ops) := by
  obtain ⟨hanswers, hleft⟩ := Keeps.empty.attemptAll ops
  rw [Store.Grounded.empty.attemptAll_snd ops] at hleft
  exact ⟨hanswers, hleft⟩

end KeyedStore

end AnonymousObjects
