import AnonymousObjects.Proofs.Types.Growth
import AnonymousObjects.Types.Registry
import Mathlib.Data.List.Nodup
import Mathlib.Logic.Relation

/-!
# The stores that operations lead to

Binding works on the store through four operations: it asks for a builtin type, an error type, a
nullable type or an anonymous type, and each is found or created. `Store.Step` is one such operation
and `Store.Reaches` any number of them. `Store.Sound` says what holds of every store that is reached
from the declared types of a program: `Sound.reaches` is the invariant, and `Extends` says what
stays as it was.
-/

namespace AnonymousObjects

namespace TypeShape

/-- The kinds of types that declarations create. -/
def isDeclared : TypeShape → Bool
  | .nullable _ | .anonymous _ => false
  | _ => true

end TypeShape

namespace TypeTable

/-- Every type is built from types that came before it. -/
def Ordered (t : TypeTable) : Prop :=
  ∀ (i : Nat) (d : TypeDef), t.defs[i]? = some d → ∀ id ∈ d.shape.arguments,
    ∃ j < i, id = .ofIndex j

/-- Every builtin type is there under its name. -/
def HasBuiltins (t : TypeTable) : Prop :=
  ∀ b : Builtin, ∃ id, t.lookup b.name = some id ∧ t.get? id = some ⟨b.shape, b.name⟩

/-- A table as the declarations of a program leave it: without nullable and anonymous types, and
with fields of types that exist. -/
structure Base (t : TypeTable) : Prop where
  builtins : t.HasBuiltins
  ordered : t.Ordered
  declared : ∀ id d, t.get? id = some d → d.shape.isDeclared = true
  schemas : ∀ p ∈ t.schemas, t.Has p.1 ∧ ∀ f ∈ p.2, t.Has f.type

variable {t u : TypeTable} {d : TypeDef} {id : TypeId}

/-- The builtin types stay in a larger table. -/
theorem HasBuiltins.grows (h : t.HasBuiltins) (hg : t.Grows u) : u.HasBuiltins := by
  intro b
  obtain ⟨id, hlookup, hget⟩ := h b
  exact ⟨id, by rw [hg.lookup, hlookup], hg.get? hget⟩

/-- A builtin type that is there is found. -/
theorem HasBuiltins.ensure (h : t.HasBuiltins) (b : Builtin) :
    ∃ id, t.lookup b.name = some id ∧ t.get? id = some ⟨b.shape, b.name⟩ ∧
      t.ensure b = (id, t) := by
  obtain ⟨id, hlookup, hget⟩ := h b
  exact ⟨id, hlookup, hget, by simp [TypeTable.ensure, ensureNamed, hlookup]⟩

/-- Asking for a builtin type that is there changes nothing. -/
@[simp] theorem HasBuiltins.ensure_snd (h : t.HasBuiltins) (b : Builtin) : (t.ensure b).2 = t := by
  obtain ⟨id, _, _, heq⟩ := h.ensure b
  rw [heq]

/-- A type that is built from types of the table may be added. -/
theorem Ordered.add (h : t.Ordered) (hd : ∀ id ∈ d.shape.arguments, t.Has id) :
    (t.add d).2.Ordered := by
  intro i e he id hid
  have hget : (t.add d).2.get? (.ofIndex i) = some e := he
  rcases get?_add_cases hget with hold | ⟨hnew, rfl⟩
  · exact h i e hold id hid
  · obtain rfl : i = t.size := by simpa [TypeTable.add] using hnew
    obtain ⟨e, hget⟩ := hd id hid
    obtain ⟨j, rfl, hj⟩ := get?_eq_some_iff.mp hget
    exact ⟨j, (List.getElem?_eq_some_iff.mp hj).1, rfl⟩

/-- What a type is built from exists. -/
theorem Ordered.has (h : t.Ordered) (hd : t.get? id = some d) {part : TypeId}
    (hpart : part ∈ d.shape.arguments) : t.Has part := by
  obtain ⟨i, rfl, hi⟩ := get?_eq_some_iff.mp hd
  obtain ⟨j, hj, rfl⟩ := h i d hi part hpart
  have hlt : i < t.defs.length := (List.getElem?_eq_some_iff.mp hi).1
  exact ⟨t.defs[j], by simp [List.getElem?_eq_getElem (Nat.lt_trans hj hlt)]⟩

/-- A nullable type is found or added for a value type, and any other type is taken as it is. -/
theorem nullableOf_cases {inner : TypeId} {r : TypeId × TypeTable}
    (h : t.nullableOf inner = .ok r) :
    (∃ d, t.get? inner = some d ∧ d.shape = .value ∧
        r = t.findOrAdd (·.shape = .nullable inner) ⟨.nullable inner, d.name ++ "?"⟩) ∨
      (∃ d, t.get? inner = some d ∧ d.shape ≠ .value ∧ r = (inner, t)) := by
  simp only [nullableOf, bind, Except.bind] at h
  cases hget : t.get inner with
  | error e => simp [hget] at h
  | ok d =>
    simp only [hget] at h
    have hd := get_eq_ok_iff.mp hget
    refine Or.imp (fun h => ⟨d, hd, h⟩) (fun h => ⟨d, hd, h⟩) ?_
    split at h
    · next hvalue => exact .inl ⟨hvalue, (Except.ok.inj h).symm⟩
    · next hother => exact .inr ⟨hother, (Except.ok.inj h).symm⟩

/-- A type of the table has a nullable type. -/
theorem nullableOf_of_has {inner : TypeId} (h : t.Has inner) :
    ∃ r, t.nullableOf inner = .ok r := by
  obtain ⟨d, hd⟩ := h
  have hget : t.get inner = .ok d := get_eq_ok_iff.mpr hd
  simp only [nullableOf, hget, bind, Except.bind, pure, Except.pure]
  split <;> exact ⟨_, rfl⟩

/-- The nullable type of a value type is in the table. -/
theorem get?_nullableOf {inner : TypeId} {r : TypeId × TypeTable} (hd : t.get? inner = some d)
    (hvalue : d.shape = .value) (h : t.nullableOf inner = .ok r) :
    ∃ name, r.2.get? r.1 = some ⟨.nullable inner, name⟩ := by
  rcases nullableOf_cases h with ⟨e, _, _, rfl⟩ | ⟨e, he, hother, _⟩
  · rcases t.findOrAdd_cases (·.shape = .nullable inner) ⟨.nullable inner, e.name ++ "?"⟩ with
      ⟨id, f, hf, hshape, hfound⟩ | ⟨_, hadded⟩
    · rw [hfound]
      exact ⟨f.name, by rw [hf, ← of_decide_eq_true hshape]⟩
    · rw [hadded]
      exact ⟨_, get?_add _ _⟩
  · rw [hd] at he
    exact absurd (Option.some.inj he ▸ hvalue) hother

/-- A nullable type is in the table once it has been asked for. -/
theorem has_nullableOf {inner : TypeId} {r : TypeId × TypeTable} (h : t.nullableOf inner = .ok r) :
    r.2.Has r.1 := by
  rcases nullableOf_cases h with ⟨d, hd, hvalue, _⟩ | ⟨d, hd, _, rfl⟩
  · obtain ⟨name, hget⟩ := get?_nullableOf hd hvalue h
    exact ⟨_, hget⟩
  · exact ⟨d, hd⟩

/-- The error type of a name is in the table. -/
theorem has_ensureError (t : TypeTable) (name : String) :
    (t.ensureError name).2.Has (t.ensureError name).1 := by
  rcases t.findOrAdd_cases (fun d => d.shape.isError && d.name == name) ⟨.error, name⟩ with
    ⟨id, e, he, _, hfound⟩ | ⟨_, hadded⟩
  · rw [ensureError, hfound]
    exact ⟨e, he⟩
  · rw [ensureError, hadded]
    exact ⟨_, get?_add _ _⟩

/-- The type of a field that is found exists, and so does the type that has the field. -/
theorem Base.findField (h : t.Base) {name : String} {isStatic : Bool} {f : FieldSchema}
    (hf : t.findField id name isStatic = some f) : t.Has id ∧ t.Has f.type := by
  have hmem : f ∈ t.fieldsOf id := List.mem_of_find?_eq_some hf
  unfold fieldsOf at hmem
  cases hp : t.schemas.find? (·.1 = id) with
  | none => simp [hp] at hmem
  | some p =>
    obtain ⟨howner, hfields⟩ := h.schemas p (List.mem_of_find?_eq_some hp)
    have hid : p.1 = id := by simpa using List.find?_some hp
    simp only [hp, Option.map_some, Option.getD_some] at hmem
    exact ⟨hid ▸ howner, hfields f hmem⟩

end TypeTable

/-! ## Anonymous types -/

namespace AnonymousType

/-- The members of a type are those that its key asks for. -/
structure Built (a : AnonymousType) : Prop where
  properties : a.properties = Store.properties a.id 0 a.key
  constructor : a.constructor = ⟨a.key.map (·.2), a.id⟩

/-- A type stands in the table with the types of its fields. -/
def Registered (a : AnonymousType) (t : TypeTable) : Prop :=
  ∃ name, t.get? a.id = some ⟨.anonymous (a.key.map (·.2)), name⟩

/-- The properties of a type have the names of the fields that its key asks for. -/
theorem names_of_key {a : AnonymousType} {fields : List AnonymousField}
    (h : a.key = AnonymousKey.ofFields fields) :
    a.properties.map (·.name) = fields.map (·.name) := by
  have hnames := congrArg (List.map Prod.fst) h
  simpa [key, AnonymousKey.ofFields, Function.comp_def] using hnames

end AnonymousType

namespace Store

/-- The properties of a key have the names and types of the key. -/
theorem key_properties (owner : TypeId) (i : Nat) (key : AnonymousKey) :
    (properties owner i key).map (fun p => (p.name, p.type)) = key := by
  induction key generalizing i with
  | nil => rfl
  | cons pair rest ih => simp [properties, ih]

/-- There is a property for each pair of the key. -/
@[simp] theorem length_properties (owner : TypeId) (i : Nat) (key : AnonymousKey) :
    (properties owner i key).length = key.length := by
  induction key generalizing i with
  | nil => rfl
  | cons pair rest ih => simp [properties, ih]

/-- The property at a place has that place as its index. -/
theorem getElem?_properties (owner : TypeId) (i k : Nat) (key : AnonymousKey) :
    (properties owner i key)[k]? = key[k]?.map fun pair => ⟨pair.1, i + k, pair.2, owner⟩ := by
  induction key generalizing i k with
  | nil => simp [properties]
  | cons pair rest ih =>
    cases k with
    | zero => simp [properties]
    | succ k => simp [properties, ih, Nat.add_comm, Nat.add_left_comm]

/-- The types of a key whose types are shown exist. -/
theorem has_of_displays {t : TypeTable} {key : AnonymousKey} {shown : List String}
    (h : displays t key = .ok shown) : ∀ pair ∈ key, t.Has pair.2 := by
  induction key generalizing shown with
  | nil => simp
  | cons pair rest ih =>
    obtain ⟨name, id⟩ := pair
    simp only [displays, bind, Except.bind] at h
    cases hid : t.display id with
    | error e => simp [hid] at h
    | ok first =>
      cases hrest : displays t rest with
      | error e => simp [hid, hrest] at h
      | ok others =>
        intro pair hpair
        rcases List.mem_cons.mp hpair with rfl | hpair
        · obtain ⟨d, hd, _⟩ := TypeTable.display_eq_ok_iff.mp hid
          exact ⟨d, hd⟩
        · exact ih hrest pair hpair

/-- Types that exist are shown. -/
theorem displays_of_has {t : TypeTable} {key : AnonymousKey} (h : ∀ pair ∈ key, t.Has pair.2) :
    ∃ shown, displays t key = .ok shown := by
  induction key with
  | nil => exact ⟨[], rfl⟩
  | cons pair rest ih =>
    obtain ⟨name, id⟩ := pair
    obtain ⟨d, hd⟩ := h (name, id) (by simp)
    obtain ⟨others, hothers⟩ := ih fun pair hpair => h pair (by simp [hpair])
    have hid : t.display id = .ok d.name := TypeTable.display_eq_ok_iff.mpr ⟨d, hd, rfl⟩
    exact ⟨d.name :: others, by simp [displays, bind, Except.bind, pure, Except.pure, hid, hothers]⟩

/-- The methods of a type need no new types where the builtin types are there. -/
theorem methods_table {t : TypeTable} (h : t.HasBuiltins) (owner : TypeId) :
    (methods t owner).2 = t := by
  simp [methods, h]

/-- What the creation of an anonymous type does: its key's types exist, and the type is added to
the table and to the registry with the members of its key. -/
theorem create_spec {s s' : Store} {key : AnonymousKey} {span : Span} {a : AnonymousType}
    (hbuiltins : s.table.HasBuiltins) (h : s.create key span = .ok (a, s')) :
    (∀ pair ∈ key, s.table.Has pair.2) ∧
      ∃ name, (s.table.add ⟨.anonymous (key.map (·.2)), name⟩) = (a.id, s'.table) ∧
        s'.registry.types = s.registry.types ++ [a] ∧ a.key = key ∧ a.Built := by
  simp only [create, bind, Except.bind] at h
  cases hshown : displays s.table key with
  | error e => simp [hshown] at h
  | ok shown =>
    refine ⟨has_of_displays hshown, displayName (key.map (·.1)) shown, ?_⟩
    have hgrown := hbuiltins.grows (TypeTable.Grows.add s.table
      (d := ⟨.anonymous (key.map (·.2)), displayName (key.map (·.1)) shown⟩) rfl)
    simp only [hshown, pure, Except.pure, Except.ok.injEq, Prod.mk.injEq,
      TypeTable.addAnonymous] at h
    obtain ⟨rfl, rfl⟩ := h
    have hkey := key_properties (s.table.add
      ⟨.anonymous (key.map (·.2)), displayName (key.map (·.1)) shown⟩).1 0 key
    refine ⟨?_, ?_, hkey, ?_, ?_⟩
    · rw [methods_table hgrown]
    · unfold Registry.templateFor
      cases s.registry.templates.find? (·.fieldNames = key.map (·.1)) <;> rfl
    · exact congrArg (properties _ 0) hkey.symm
    · exact congrArg (fun key : AnonymousKey => (⟨key.map (·.2), _⟩ : Constructor)) hkey.symm

/-- The key of the type that a list of fields gets is the key of the fields. -/
theorem intern_cases {s s' : Store} {fields : List AnonymousField} {span : Span}
    {a : AnonymousType} (h : s.intern fields span = .ok (a, s')) :
    (s' = s ∧ a ∈ s.registry.types ∧ a.key = AnonymousKey.ofFields fields) ∨
      s.create (AnonymousKey.ofFields fields) span = .ok (a, s') := by
  unfold intern at h
  cases hfind : s.registry.find? (AnonymousKey.ofFields fields) with
  | none => exact .inr (by simpa [hfind] using h)
  | some b =>
    simp only [hfind, pure, Except.pure, Except.ok.injEq, Prod.mk.injEq] at h
    obtain ⟨rfl, rfl⟩ := h
    exact .inl ⟨rfl, List.mem_of_find?_eq_some hfind, by simpa using List.find?_some hfind⟩

/-! ## Operations -/

/-- One operation on a store: a type is found or created. An operation that is refused leaves the
store as it is. -/
inductive Step : Store → Store → Prop where
  | ensure (s b) : Step s { s with table := (s.table.ensure b).2 }
  | ensureError (s name) : Step s { s with table := (s.table.ensureError name).2 }
  | nullableOf (s inner id table) :
      s.table.nullableOf inner = .ok (id, table) → Step s { s with table := table }
  | intern (s fields span type s') : s.intern fields span = .ok (type, s') → Step s s'

/-- The second store is reached from the first by any number of operations. -/
def Reaches : Store → Store → Prop :=
  Relation.ReflTransGen Step

/-- The larger store has more types, none of them with a name in source text, and more anonymous
types. -/
structure Extends (s s' : Store) : Prop where
  table : s.table.Grows s'.table
  types : s.registry.types <+: s'.registry.types

/-- A store holds what it holds. -/
theorem Extends.refl (s : Store) : s.Extends s :=
  ⟨.refl _, List.prefix_rfl⟩

/-- What holds more than a larger store holds more. -/
theorem Extends.trans {s s' s'' : Store} (h : s.Extends s') (h' : s'.Extends s'') :
    s.Extends s'' :=
  ⟨h.table.trans h'.table, h.types.trans h'.types⟩

/-- What holds of the stores that are reached from a table of declared types. -/
structure Sound (base : TypeTable) (s : Store) : Prop where
  grows : base.Grows s.table
  ordered : s.table.Ordered
  nullables : ∀ id inner name, s.table.get? id = some ⟨.nullable inner, name⟩ →
    ∃ name, base.get? inner = some ⟨.value, name⟩
  anonymous : ∀ id parts name, s.table.get? id = some ⟨.anonymous parts, name⟩ →
    ∃ a ∈ s.registry.types, a.id = id
  built : ∀ a ∈ s.registry.types, a.Built
  registered : ∀ a ∈ s.registry.types, a.Registered s.table
  distinct : s.registry.types.Pairwise (·.id ≠ ·.id)

variable {base : TypeTable} {s s' : Store}

/-- The store of the declared types themselves. -/
theorem Sound.init (hbase : base.Base) : Sound base { table := base } where
  grows := .refl _
  ordered := hbase.ordered
  nullables id inner name h := absurd (hbase.declared _ _ h) (by simp [TypeShape.isDeclared])
  anonymous id parts name h := absurd (hbase.declared _ _ h) (by simp [TypeShape.isDeclared])
  built := by simp
  registered := by simp
  distinct := .nil

/-- A type may be added that is no anonymous type and has no name in source text. -/
theorem Sound.add (h : s.Sound base) {d : TypeDef} (hnamed : d.shape.isNamed = false)
    (hparts : ∀ id ∈ d.shape.arguments, s.table.Has id)
    (hnullable : ∀ inner, d.shape = .nullable inner → ∃ name, base.get? inner = some ⟨.value, name⟩)
    (hanonymous : ∀ parts, d.shape ≠ .anonymous parts) :
    Sound base { s with table := (s.table.add d).2 } where
  grows := h.grows.trans (.add _ hnamed)
  ordered := h.ordered.add hparts
  nullables id inner name hid := by
    rcases TypeTable.get?_add_cases hid with hid | ⟨_, rfl⟩
    · exact h.nullables id inner name hid
    · exact hnullable inner rfl
  anonymous id parts name hid := by
    rcases TypeTable.get?_add_cases hid with hid | ⟨_, rfl⟩
    · exact h.anonymous id parts name hid
    · exact absurd rfl (hanonymous parts)
  built := h.built
  registered a ha := by
    obtain ⟨name, hget⟩ := h.registered a ha
    exact ⟨name, TypeTable.get?_add_of_some hget⟩
  distinct := h.distinct

/-- An anonymous type may be created. -/
theorem Sound.create (hbase : base.Base) (h : s.Sound base) {key : AnonymousKey} {span : Span}
    {a : AnonymousType} (hcreate : s.create key span = .ok (a, s')) :
    s'.Sound base ∧ s.Extends s' := by
  obtain ⟨hhas, name, hadd, htypes, hkey, hbuilt⟩ :=
    create_spec (hbase.builtins.grows h.grows) hcreate
  have hid := congrArg Prod.fst hadd
  have htable := congrArg Prod.snd hadd
  dsimp only at hid htable
  have hnew : s'.table.get? a.id = some ⟨.anonymous (key.map (·.2)), name⟩ := by
    rw [← hid, ← htable]
    exact TypeTable.get?_add _ _
  have hgrows : s.table.Grows s'.table := htable ▸ .add _ rfl
  refine ⟨⟨h.grows.trans hgrows, ?_, ?_, ?_, ?_, ?_, ?_⟩, hgrows, ⟨[a], htypes.symm⟩⟩
  · rw [← htable]
    refine h.ordered.add fun id hmem => ?_
    obtain ⟨pair, hpair, rfl⟩ := List.mem_map.mp hmem
    exact hhas pair hpair
  · intro id inner name' hget
    rw [← htable] at hget
    rcases TypeTable.get?_add_cases hget with hget | ⟨_, hd⟩
    · exact h.nullables id inner name' hget
    · simp at hd
  · intro id parts name' hget
    rw [← htable] at hget
    rw [htypes]
    rcases TypeTable.get?_add_cases hget with hget | ⟨hnew, _⟩
    · obtain ⟨b, hb, hbid⟩ := h.anonymous id parts name' hget
      exact ⟨b, by simp [hb], hbid⟩
    · exact ⟨a, by simp, by rw [hnew, hid]⟩
  · intro b hb
    rw [htypes] at hb
    rcases List.mem_append.mp hb with hb | hb
    · exact h.built b hb
    · rwa [List.mem_singleton.mp hb]
  · intro b hb
    rw [htypes] at hb
    rcases List.mem_append.mp hb with hb | hb
    · obtain ⟨name', hget⟩ := h.registered b hb
      exact ⟨name', hgrows.get? hget⟩
    · rw [List.mem_singleton.mp hb]
      exact ⟨name, by rw [hnew, hkey]⟩
  · rw [htypes, List.pairwise_append]
    refine ⟨h.distinct, List.pairwise_singleton _ _, ?_⟩
    -- An old type is registered in the old table, where the new id is not yet given out.
    intro b hb c hc heq
    obtain ⟨name', hget⟩ := h.registered b hb
    rw [List.mem_singleton.mp hc, ← hid] at heq
    exact TypeTable.not_has_add _ _ ⟨_, heq ▸ hget⟩

/-- An operation keeps a store sound and what was there as it was. -/
theorem Sound.step (hbase : base.Base) (h : s.Sound base) (hstep : Step s s') :
    s'.Sound base ∧ s.Extends s' := by
  cases hstep with
  | ensure b =>
      rw [(hbase.builtins.grows h.grows).ensure_snd]
      exact ⟨h, .refl _⟩
  | ensureError name =>
      rcases s.table.findOrAdd_cases (fun d => d.shape.isError && d.name == name) ⟨.error, name⟩
        with ⟨id, e, _, _, hfound⟩ | ⟨_, hadded⟩
      · rw [TypeTable.ensureError, hfound]
        exact ⟨h, .refl _⟩
      · rw [TypeTable.ensureError, hadded]
        exact ⟨h.add rfl (by simp [TypeShape.arguments]) (by simp) (by simp),
          .add _ rfl, List.prefix_rfl⟩
  | nullableOf inner id table hmade =>
      rcases TypeTable.nullableOf_cases hmade with ⟨d, hget, hvalue, hfound⟩ | ⟨_, _, _, hsame⟩
      · -- Only a value type gets a nullable type of its own, and value types are declared.
        have hdeclared := h.grows.get?_of_named hget (by rw [hvalue]; rfl)
        rcases s.table.findOrAdd_cases (·.shape = .nullable inner) ⟨.nullable inner, d.name ++ "?"⟩
          with ⟨id', e, _, _, hold⟩ | ⟨_, hadded⟩
        · obtain ⟨_, rfl⟩ := Prod.mk.inj (hfound.trans hold)
          exact ⟨h, .refl _⟩
        · obtain rfl : table = _ := congrArg Prod.snd (hfound.trans hadded)
          refine ⟨h.add rfl ?_ ?_ (by simp), .add _ rfl, List.prefix_rfl⟩
          · simpa [TypeShape.arguments] using ⟨_, hget⟩
          · rintro inner' hinner
            obtain rfl : inner = inner' := by simpa using hinner
            exact ⟨d.name, by rw [hdeclared, ← hvalue]⟩
      · obtain ⟨_, rfl⟩ := Prod.mk.inj hsame
        exact ⟨h, .refl _⟩
  | intern fields span type _ hintern =>
      rcases intern_cases hintern with ⟨rfl, _, _⟩ | hcreate
      · exact ⟨h, .refl _⟩
      · exact h.create hbase hcreate

/-- Every store that is reached from a sound one is sound, and what was there is as it was. -/
theorem Sound.reaches (hbase : base.Base) (h : s.Sound base) (hreach : s.Reaches s') :
    s'.Sound base ∧ s.Extends s' := by
  induction hreach with
  | refl => exact ⟨h, .refl _⟩
  | tail _ hstep ih =>
      obtain ⟨hsound, hextends⟩ := ih
      obtain ⟨hsound', hextends'⟩ := hsound.step hbase hstep
      exact ⟨hsound', hextends.trans hextends'⟩

/-- The type that a list of fields gets is in the registry, and its key is that of the fields. -/
theorem Sound.intern_spec (hbase : base.Base) (h : s.Sound base) {fields : List AnonymousField}
    {span : Span} {a : AnonymousType} (hintern : s.intern fields span = .ok (a, s')) :
    a ∈ s'.registry.types ∧ a.key = AnonymousKey.ofFields fields := by
  rcases intern_cases hintern with ⟨rfl, hmem, hkey⟩ | hcreate
  · exact ⟨hmem, hkey⟩
  · obtain ⟨_, _, _, htypes, hkey, _⟩ := create_spec (hbase.builtins.grows h.grows) hcreate
    exact ⟨by simp [htypes], hkey⟩

/-- An anonymous type is created for a key whose types exist. -/
theorem create_of_has {key : AnonymousKey} (h : ∀ pair ∈ key, s.table.Has pair.2) (span : Span) :
    ∃ a s', s.create key span = .ok (a, s') := by
  obtain ⟨shown, hshown⟩ := displays_of_has h
  simp only [create, hshown, bind, Except.bind, pure, Except.pure]
  exact ⟨_, _, rfl⟩

/-- Fields of types that exist get a type. -/
theorem intern_of_has {fields : List AnonymousField} (h : ∀ f ∈ fields, s.table.Has f.type)
    (span : Span) : ∃ a s', s.intern fields span = .ok (a, s') := by
  have hkey : ∀ pair ∈ AnonymousKey.ofFields fields, s.table.Has pair.2 := by
    intro pair hpair
    obtain ⟨f, hf, rfl⟩ := List.mem_map.mp hpair
    exact h f hf
  cases hfind : s.registry.find? (AnonymousKey.ofFields fields) with
  | none => simpa [intern, hfind] using create_of_has hkey span
  | some a => exact ⟨a, s, by simp [intern, hfind, pure, Except.pure]⟩

/-- Anonymous types with the same id are the same. -/
theorem Sound.eq_of_id (hs : s.Sound base) {a b : AnonymousType}
    (ha : a ∈ s.registry.types) (hb : b ∈ s.registry.types) (hid : a.id = b.id) : a = b := by
  have hdistinct : (s.registry.types.map (·.id)).Nodup := List.pairwise_map.mpr hs.distinct
  exact List.inj_on_of_nodup_map hdistinct ha hb hid

/-- An anonymous type of a sound store is none of the declared types. -/
theorem Sound.not_declared (hbase : base.Base) (h : s.Sound base) {a : AnonymousType}
    (ha : a ∈ s.registry.types) : ¬ base.Has a.id := by
  rintro ⟨d, hd⟩
  obtain ⟨name, hget⟩ := h.registered a ha
  rw [h.grows.get? hd, Option.some.injEq] at hget
  have := hbase.declared _ _ hd
  simp [hget, TypeShape.isDeclared] at this

end Store

end AnonymousObjects
