import AnonymousObjects.Proofs.Binding.Likeness
import AnonymousObjects.Proofs.Types.SameTypes

/-!
# Two runs side by side

Two runs that make the same requests, each with its own ids, get the same types again, and a type
that is new in the first is in the second as well. `SideBySide base s t s' t'` is what is kept while
one run leads from `s` to `s'` and the other from `t` to `t'`; `SideBySide.ensureError`,
`SideBySide.nullableOf` and `SideBySide.intern` show it for the requests that create types.
-/

namespace AnonymousObjects

namespace TypeTable

variable {t : TypeTable} {id : TypeId} {d : TypeDef} {p : TypeDef → Bool}

/-- At most the type asked for is new. -/
theorem has_of_has_findOrAdd (h : (t.findOrAdd p d).2.Has id) :
    t.Has id ∨ id = (t.findOrAdd p d).1 := by
  rcases t.findOrAdd_cases p d with ⟨_, _, _, _, hfound⟩ | ⟨_, hadded⟩
  · rw [hfound] at h
    exact .inl h
  · rw [hadded] at h ⊢
    obtain ⟨e, he⟩ := h
    rcases get?_add_cases he with hold | ⟨hnew, _⟩
    · exact .inl ⟨e, hold⟩
    · exact .inr hnew

/-- The error type of a name is in the table once it has been asked for. -/
theorem get?_ensureError (t : TypeTable) (name : String) :
    (t.ensureError name).2.get? (t.ensureError name).1 = some ⟨.error, name⟩ := by
  unfold ensureError
  rcases t.findOrAdd_cases (fun d => d.shape.isError && d.name == name) ⟨.error, name⟩ with
    ⟨id, ⟨shape, found⟩, he, hp, hfound⟩ | ⟨_, hadded⟩
  · rw [hfound, he]
    cases shape <;> simp_all [TypeShape.isError]
  · rw [hadded]
    exact get?_add _ _

end TypeTable

namespace Store

variable {base : TypeTable} {s s' s'' t t' t'' : Store} {id id' : TypeId}

/-- What two runs keep, one from `s` to `s'` and the other from `t` to `t'`: they leave regular
stores with more types, and each type that is new in `s'` is in `t'`. -/
structure SideBySide (base : TypeTable) (s t s' t' : Store) : Prop where
  left : s'.Regular base
  right : t'.Regular base
  leftExtends : s.Extends s'
  rightExtends : t.Extends t'
  covered : ∀ id, s'.table.Has id → s.table.Has id ∨ ∃ id', s'.SameType t' id id'

/-- Two runs that do nothing are side by side. -/
theorem SideBySide.refl (hs : s.Regular base) (ht : t.Regular base) :
    SideBySide base s t s t where
  left := hs
  right := ht
  leftExtends := .refl s
  rightExtends := .refl t
  covered _ hid := .inl hid

/-- Two runs that go on side by side are so as a whole. -/
theorem SideBySide.trans (h : SideBySide base s t s' t') (h' : SideBySide base s' t' s'' t'') :
    SideBySide base s t s'' t'' where
  left := h'.left
  right := h'.right
  leftExtends := h.leftExtends.trans h'.leftExtends
  rightExtends := h.rightExtends.trans h'.rightExtends
  covered id hid := by
    rcases h'.covered id hid with hold | hnew
    · rcases h.covered id hold with hfirst | ⟨id', hsame⟩
      · exact .inl hfirst
      · exact .inr ⟨id', hsame.mono h'.leftExtends h'.rightExtends⟩
    · exact .inr hnew

/-- Types that are the same stay the same. -/
theorem SideBySide.sameType (h : SideBySide base s t s' t') (id id' : TypeId)
    (hsame : s.SameType t id id') : s'.SameType t' id id' :=
  hsame.mono h.leftExtends h.rightExtends

/-- Two operations that get the same type are side by side if no other type is new. -/
theorem SideBySide.of_steps (hbase : base.Base) (hs : s.Regular base) (ht : t.Regular base)
    (hstep : Step s s') (hstep' : Step t t') (hsame : s'.SameType t' id id')
    (hnew : ∀ x, s'.table.Has x → s.table.Has x ∨ x = id) : SideBySide base s t s' t' where
  left := hs.step hbase hstep
  right := ht.step hbase hstep'
  leftExtends := (hs.toSound.step hbase hstep).2
  rightExtends := (ht.toSound.step hbase hstep').2
  covered x hx := by
    rcases hnew x hx with hold | rfl
    · exact .inl hold
    · exact .inr ⟨id', hsame⟩

/-! ## Requests -/

/-- The error types of one name. -/
theorem SideBySide.ensureError (hbase : base.Base) (hs : s.Regular base) (ht : t.Regular base)
    (name : String) :
    SideBySide base s t { s with table := (s.table.ensureError name).2 }
        { t with table := (t.table.ensureError name).2 } ∧
      SameType { s with table := (s.table.ensureError name).2 }
        { t with table := (t.table.ensureError name).2 } (s.table.ensureError name).1
        (t.table.ensureError name).1 := by
  have hsame : SameType { s with table := (s.table.ensureError name).2 }
      { t with table := (t.table.ensureError name).2 } (s.table.ensureError name).1
      (t.table.ensureError name).1 :=
    ⟨.error name, .error _ _ (s.table.get?_ensureError name),
      .error _ _ (t.table.get?_ensureError name)⟩
  exact ⟨.of_steps hbase hs ht (.ensureError s name) (.ensureError t name) hsame
    fun x hx => TypeTable.has_of_has_findOrAdd hx, hsame⟩

/-- Types that are the same have nullable types that are the same. -/
theorem SameType.nullableOf (hs : s.Regular base) (ht : t.Regular base) {inner inner' : TypeId}
    (h : s.SameType t inner inner') {made made' : TypeId × TypeTable}
    (hmade : s.table.nullableOf inner = .ok made) (hmade' : t.table.nullableOf inner' = .ok made')
    (hext : s.Extends { s with table := made.2 }) (hext' : t.Extends { t with table := made'.2 }) :
    SameType { s with table := made.2 } { t with table := made'.2 } made.1 made'.1 := by
  obtain ⟨d, hd⟩ : s.table.Has inner := h.symm.has_right hs.toSound
  obtain ⟨d', hd', _, hkind⟩ := h.resembles hs ht hd
  obtain ⟨τ, hτ, hτ'⟩ := h
  by_cases hvalue : d.shape = .value
  · have hvalue' := hkind.eq_value_iff.mpr hvalue
    obtain ⟨name, hget⟩ := TypeTable.get?_nullableOf hd hvalue hmade
    obtain ⟨name', hget'⟩ := TypeTable.get?_nullableOf hd' hvalue' hmade'
    exact ⟨.nullable τ, .nullable _ inner name τ hget (hτ.mono hext),
      .nullable _ inner' name' τ hget' (hτ'.mono hext')⟩
  · -- Any other type is its own nullable type.
    rcases TypeTable.nullableOf_cases hmade with ⟨e, he, hother, _⟩ | ⟨_, _, _, rfl⟩
    · exact absurd (Option.some.inj (hd.symm.trans he) ▸ hother) hvalue
    · rcases TypeTable.nullableOf_cases hmade' with ⟨e', he', hother, _⟩ | ⟨_, _, _, rfl⟩
      · obtain rfl : d' = e' := Option.some.inj (hd'.symm.trans he')
        exact absurd (hkind.eq_value_iff.mp hother) hvalue
      · exact ⟨τ, hτ, hτ'⟩

/-- The nullable types of types that are the same. -/
theorem SideBySide.nullableOf (hbase : base.Base) (hs : s.Regular base) (ht : t.Regular base)
    {inner inner' : TypeId} (h : s.SameType t inner inner') {made : TypeId × TypeTable}
    (hmade : s.table.nullableOf inner = .ok made) :
    ∃ made', t.table.nullableOf inner' = .ok made' ∧
      SideBySide base s t { s with table := made.2 } { t with table := made'.2 } ∧
      SameType { s with table := made.2 } { t with table := made'.2 } made.1 made'.1 := by
  obtain ⟨made', hmade'⟩ := TypeTable.nullableOf_of_has (h.has_right ht.toSound)
  have hstep : Step s { s with table := made.2 } := .nullableOf s inner made.1 made.2 hmade
  have hstep' : Step t { t with table := made'.2 } := .nullableOf t inner' made'.1 made'.2 hmade'
  have hsame := h.nullableOf hs ht hmade hmade' (hs.toSound.step hbase hstep).2
    (ht.toSound.step hbase hstep').2
  refine ⟨made', hmade', .of_steps hbase hs ht hstep hstep' hsame ?_, hsame⟩
  intro x hx
  rcases TypeTable.nullableOf_cases hmade with ⟨_, _, _, rfl⟩ | ⟨_, _, _, rfl⟩
  · exact TypeTable.has_of_has_findOrAdd hx
  · exact .inl hx

/-! ## Anonymous types -/

/-- Keys with the same names and the same types denote the same fields. -/
theorem unfoldsKey_of_alike {key key' : AnonymousKey} (h : key.Alike (s.SameType t) key') :
    ∃ fields, s.UnfoldsKey key fields ∧ t.UnfoldsKey key' fields := by
  induction h with
  | nil => exact ⟨[], .nil, .nil⟩
  | @cons p q key key' hpair _ ih =>
      obtain ⟨name, id⟩ := p
      obtain ⟨name', id'⟩ := q
      obtain ⟨rfl, τ, hτ, hτ'⟩ := hpair
      obtain ⟨fields, hfields, hfields'⟩ := ih
      exact ⟨_, .cons _ id τ key fields hτ hfields, .cons _ id' τ key' fields hτ' hfields'⟩

/-- Properties of keys that are alike are alike. -/
theorem properties_alike {R : TypeId → TypeId → Prop} {key key' : AnonymousKey}
    (h : key.Alike R key') {owner owner' : TypeId} (howner : R owner owner') (i : Nat) :
    List.Forall₂ (Property.Alike R) (properties owner i key) (properties owner' i key') := by
  induction h generalizing i with
  | nil => exact .nil
  | cons hpair _ ih => exact .cons ⟨hpair.1, rfl, hpair.2, howner⟩ (ih (i + 1))

/-- Types with keys that are alike have members that are alike. -/
theorem Regular.alike_of_key (hbase : base.Base) (hs : s.Regular base) (ht : t.Regular base)
    {a b : AnonymousType} (ha : a ∈ s.registry.types) (hb : b ∈ t.registry.types)
    (hkey : a.key.Alike (s.SameType t) b.key) : a.Alike (s.SameType t) b := by
  obtain ⟨fields, hfields, hfields'⟩ := unfoldsKey_of_alike hkey
  have hid : s.SameType t a.id b.id :=
    ⟨.anonymous fields, .anonymous _ a fields ha rfl hfields, .anonymous _ b fields hb rfl hfields'⟩
  have hnames : b.key.map (·.1) = a.key.map (·.1) :=
    (hfields.shown hs ht hfields').1
  have hparams : List.Forall₂ (s.SameType t) (a.key.map (·.2)) (b.key.map (·.2)) := by
    rw [List.forall₂_map_left_iff, List.forall₂_map_right_iff]
    exact hkey.imp fun _ _ hpair => hpair.2
  -- The signatures of the methods are made of builtin types, which are declared.
  have hbuiltin : ∀ k : Builtin, s.SameType t (base.ensure k).1 (base.ensure k).1 := by
    intro k
    obtain ⟨id, _, hget, hfound⟩ := hbase.builtins.ensure k
    rw [hfound]
    exact hs.toSound.sameType hbase ht.toSound ⟨_, hget⟩
  exact
    { fieldNames := by rw [hs.templates a ha, ht.templates b hb, hnames]
      id := hid
      properties := by
        rw [(hs.built a ha).properties, (ht.built b hb).properties]
        exact properties_alike hkey hid 0
      constructor := by
        rw [(hs.built a ha).constructor, (ht.built b hb).constructor]
        exact ⟨hparams, hid⟩
      methods := by
        rw [hs.methods a ha, ht.methods b hb]
        simp only [Store.methods, hbase.builtins.ensure_snd]
        exact .cons ⟨rfl, .cons (hbuiltin .object) .nil, hbuiltin .bool, hid⟩
          (.cons ⟨rfl, .nil, hbuiltin .int, hid⟩
            (.cons ⟨rfl, .nil, hbuiltin .string, hid⟩ .nil)) }

/-- At most the type that the fields get is new. -/
theorem Sound.has_of_has_intern (hbase : base.Base) (hs : s.Sound base)
    {fields : List AnonymousField} {span : Span} {a : AnonymousType}
    (hintern : s.intern fields span = .ok (a, s')) (h : s'.table.Has id) :
    s.table.Has id ∨ id = a.id := by
  rcases intern_cases hintern with ⟨rfl, _, _⟩ | hcreate
  · exact .inl h
  · obtain ⟨_, name, hadd, _⟩ := create_spec (hbase.builtins.grows hs.grows) hcreate
    have htable : (s.table.add _).2 = s'.table := congrArg Prod.snd hadd
    obtain ⟨d, hd⟩ := h
    rw [← htable] at hd
    rcases TypeTable.get?_add_cases hd with hold | ⟨hnew, _⟩
    · exact .inl ⟨d, hold⟩
    · exact .inr (hnew.trans (congrArg Prod.fst hadd))

/-- Types that fields are alike in are there. -/
theorem has_of_alike (ht : t.Sound base) {fields fields' : List AnonymousField}
    (h : List.Forall₂ (AnonymousField.Alike (s.SameType t)) fields fields') :
    ∀ f ∈ fields', t.table.Has f.type := by
  induction h with
  | nil => simp
  | cons hf _ ih =>
      intro g hg
      cases List.mem_cons.mp hg with
      | inl heq => exact heq ▸ hf.type.has_right ht
      | inr hg => exact ih g hg

/-- Fields that are alike have keys that are alike. -/
theorem ofFields_alike {R : TypeId → TypeId → Prop} {fields fields' : List AnonymousField}
    (h : List.Forall₂ (AnonymousField.Alike R) fields fields') :
    (AnonymousKey.ofFields fields).Alike R (AnonymousKey.ofFields fields') := by
  rw [AnonymousKey.ofFields, AnonymousKey.ofFields, AnonymousKey.Alike,
    List.forall₂_map_left_iff, List.forall₂_map_right_iff]
  exact h.imp fun f g hf => ⟨hf.name, hf.type⟩

/-- The anonymous types of fields that are alike. -/
theorem SideBySide.intern (hbase : base.Base) (hs : s.Regular base) (ht : t.Regular base)
    {fields fields' : List AnonymousField}
    (h : List.Forall₂ (AnonymousField.Alike (s.SameType t)) fields fields') {span : Span}
    {a : AnonymousType} (hintern : s.intern fields span = .ok (a, s')) :
    ∃ b t', t.intern fields' span = .ok (b, t') ∧ SideBySide base s t s' t' ∧
      a.Alike (s'.SameType t') b := by
  obtain ⟨b, t', hintern'⟩ := intern_of_has (has_of_alike ht.toSound h) span
  have hstep : Step s s' := .intern s fields span a s' hintern
  have hstep' : Step t t' := .intern t fields' span b t' hintern'
  have hext := (hs.toSound.step hbase hstep).2
  have hext' := (ht.toSound.step hbase hstep').2
  obtain ⟨ha, hakey⟩ := hs.toSound.intern_spec hbase hintern
  obtain ⟨hb, hbkey⟩ := ht.toSound.intern_spec hbase hintern'
  have hkey : a.key.Alike (s'.SameType t') b.key := by
    rw [hakey, hbkey]
    exact ofFields_alike (h.imp fun _ _ hf => hf.imp fun _ _ hsame => hsame.mono hext hext')
  have halike := (hs.step hbase hstep).alike_of_key hbase (ht.step hbase hstep') ha hb hkey
  refine ⟨b, t', hintern', .of_steps hbase hs ht hstep hstep' halike.id ?_, halike⟩
  intro x hx
  exact hs.toSound.has_of_has_intern hbase hintern hx

end Store

end AnonymousObjects
