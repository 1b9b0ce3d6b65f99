import AnonymousObjects.Proofs.Types.Structures

/-!
# Types of two stores

`s.SameType t id id'` says that `id` denotes in `s` what `id'` denotes in `t`. Whatever binding asks
about a type has the same answer in both stores: the name that is shown and the kind of the type
(`SameType.resembles`), and its fields (`SameType.findField`). A declared type has the same id in
all stores (`SameType.eq_iff`).
-/

namespace AnonymousObjects

/-- Two shapes differ at most in the types that they are built from. -/
inductive TypeShape.SameKind : TypeShape → TypeShape → Prop where
  | refl (shape) : SameKind shape shape
  | pointer (target target') : SameKind (.pointer target) (.pointer target')
  | nullable (inner inner') : SameKind (.nullable inner) (.nullable inner')
  | anonymous (parts parts') : SameKind (.anonymous parts) (.anonymous parts')

namespace TypeShape.SameKind

variable {shape shape' : TypeShape}

/-- Types of the same kind both have no values, or neither does. -/
theorem isVoid (h : shape.SameKind shape') : shape'.isVoid = shape.isVoid := by
  cases h <;> rfl

/-- Types of the same kind are both unsafe, or neither is. -/
theorem isUnsafe (h : shape.SameKind shape') : shape'.isUnsafe = shape.isUnsafe := by
  cases h <;> rfl

/-- Types of the same kind are both restricted, or neither is. -/
theorem isRestricted (h : shape.SameKind shape') : shape'.isRestricted = shape.isRestricted := by
  cases h <;> rfl

/-- Types of the same kind both have references as values, or neither does. -/
theorem isReference (h : shape.SameKind shape') : shape'.isReference = shape.isReference := by
  cases h <;> rfl

/-- Types of the same kind both admit null, or neither does. -/
theorem admitsNull (h : shape.SameKind shape') : shape'.admitsNull = shape.admitsNull := by
  cases h <;> rfl

/-- Types of the same kind are both value types, or neither is. -/
theorem eq_value_iff (h : shape.SameKind shape') : shape' = .value ↔ shape = .value := by
  cases h <;> simp

end TypeShape.SameKind

namespace Store

variable {base : TypeTable} {s s' s'' t t' t'' : Store} {id id' : TypeId} {d : TypeDef}
  {τ : TypeStructure}

/-! ## What does not depend on the ids -/

/-- `s.SameType t id id'` says that `id` denotes in `s` what `id'` denotes in `t`. -/
def SameType (s t : Store) (id id' : TypeId) : Prop :=
  ∃ τ, s.Unfolds id τ ∧ t.Unfolds id' τ

/-- Types are the same both ways. -/
theorem SameType.symm (h : s.SameType t id id') : t.SameType s id' id := by
  obtain ⟨τ, hs, ht⟩ := h
  exact ⟨τ, ht, hs⟩

/-- Types that are the same stay so in stores with more types. -/
theorem SameType.mono (h : s.SameType t id id') (hs : s.Extends s') (ht : t.Extends t') :
    s'.SameType t' id id' := by
  obtain ⟨τ, hτ, hτ'⟩ := h
  exact ⟨τ, hτ.mono hs, hτ'.mono ht⟩

mutual

/-- Types of the same structure have the same name and are of the same kind. -/
theorem Unfolds.resembles (hs : s.Regular base) (ht : t.Regular base) {id id' : TypeId}
    {τ : TypeStructure} (h : s.Unfolds id τ) (h' : t.Unfolds id' τ) :
    ∃ d d', s.table.get? id = some d ∧ t.table.get? id' = some d' ∧ d'.name = d.name ∧
      d.shape.SameKind d'.shape := by
  match h with
  | .named _ shape name hd hnamed =>
      cases h' with
      | named _ shape' _ hd' hnamed' =>
          -- Named types are declared, so both tables have them from the same one.
          have hold := hs.grows.get? (ht.grows.get?_of_named hd' hnamed')
          obtain rfl := hs.table.apart _ _ _ _ hd hold (.named _ _ hnamed hnamed' rfl)
          obtain rfl : shape = shape' := by simpa using hd.symm.trans hold
          exact ⟨_, _, hd, hd', rfl, .refl shape⟩
  | .error _ name hd =>
      cases h' with
      | error _ _ hd' => exact ⟨_, _, hd, hd', rfl, .refl _⟩
  | .pointer _ target name τ hd hτ =>
      cases h' with
      | pointer _ target' name' _ hd' hτ' =>
          obtain ⟨e, e', he, he', hname, _⟩ := hτ.resembles hs ht hτ'
          obtain ⟨f, hf, rfl⟩ := hs.table.pointers _ _ _ hd
          obtain ⟨f', hf', rfl⟩ := ht.table.pointers _ _ _ hd'
          obtain rfl : e = f := Option.some.inj (he.symm.trans hf)
          obtain rfl : e' = f' := Option.some.inj (he'.symm.trans hf')
          exact ⟨_, _, hd, hd', congrArg (· ++ "*") hname, .pointer target target'⟩
  | .nullable _ inner name τ hd hτ =>
      cases h' with
      | nullable _ inner' name' _ hd' hτ' =>
          obtain ⟨e, e', he, he', hname, _⟩ := hτ.resembles hs ht hτ'
          obtain ⟨f, hf, rfl⟩ := hs.table.nullables _ _ _ hd
          obtain ⟨f', hf', rfl⟩ := ht.table.nullables _ _ _ hd'
          obtain rfl : e = f := Option.some.inj (he.symm.trans hf)
          obtain rfl : e' = f' := Option.some.inj (he'.symm.trans hf')
          exact ⟨_, _, hd, hd', congrArg (· ++ "?") hname, .nullable inner inner'⟩
  | .anonymous _ a fields ha hid hkey =>
      cases h' with
      | anonymous _ b _ hb hid' hkey' =>
          obtain ⟨hnames, hsame⟩ := hkey.shown hs ht hkey'
          obtain ⟨shown, hshown, hd⟩ := hs.shown a ha
          obtain ⟨shown', hshown', hd'⟩ := ht.shown b hb
          obtain rfl : shown' = shown := hsame shown shown' hshown hshown'
          exact ⟨_, _, hid ▸ hd, hid' ▸ hd', by rw [hnames], .anonymous _ _⟩

/-- Keys of the same structure have the same names, and their types are shown alike. -/
theorem UnfoldsKey.shown (hs : s.Regular base) (ht : t.Regular base) {key key' : AnonymousKey}
    {fields : List (String × TypeStructure)} (h : s.UnfoldsKey key fields)
    (h' : t.UnfoldsKey key' fields) :
    key'.map (·.1) = key.map (·.1) ∧ ∀ shown shown', displays s.table key = .ok shown →
      displays t.table key' = .ok shown' → shown' = shown := by
  match h with
  | .nil =>
      cases h' with
      | nil =>
          refine ⟨rfl, fun shown shown' hshown hshown' => ?_⟩
          exact Except.ok.inj (hshown'.symm.trans hshown)
  | .cons name id τ key fields hid hkey =>
      cases h' with
      | cons _ id' _ key' _ hid' hkey' =>
          obtain ⟨d, d', hd, hd', hname, _⟩ := hid.resembles hs ht hid'
          obtain ⟨hnames, hrest⟩ := hkey.shown hs ht hkey'
          refine ⟨by simp [hnames], fun shown shown' hshown hshown' => ?_⟩
          obtain ⟨e, others, he, hothers, rfl⟩ := displays_cons_iff.mp hshown
          obtain ⟨e', others', he', hothers', rfl⟩ := displays_cons_iff.mp hshown'
          obtain rfl : d = e := Option.some.inj (hd.symm.trans he)
          obtain rfl : d' = e' := Option.some.inj (hd'.symm.trans he')
          rw [hname, hrest others others' hothers hothers']

end

/-- Types that are the same have the same name and are of the same kind. -/
theorem SameType.resembles (hs : s.Regular base) (ht : t.Regular base) (h : s.SameType t id id')
    (hd : s.table.get? id = some d) :
    ∃ d', t.table.get? id' = some d' ∧ d'.name = d.name ∧ d.shape.SameKind d'.shape := by
  obtain ⟨τ, hτ, hτ'⟩ := h
  obtain ⟨e, d', he, hd', hname, hkind⟩ := hτ.resembles hs ht hτ'
  obtain rfl : d = e := Option.some.inj (hd.symm.trans he)
  exact ⟨d', hd', hname, hkind⟩

/-- What a nullable type is the nullable type of. -/
theorem SameType.of_nullable (hs : s.Sound base) (h : s.SameType t id id') {inner : TypeId}
    {name : String} (hd : s.table.get? id = some ⟨.nullable inner, name⟩) :
    ∃ inner' name', t.table.get? id' = some ⟨.nullable inner', name'⟩ ∧
      s.SameType t inner inner' := by
  obtain ⟨τ, hτ, hτ'⟩ := h
  obtain ⟨σ, rfl, hσ⟩ := hτ.of_nullable hs hd
  cases hτ' with
  | nullable _ inner' name' _ hd' hσ' => exact ⟨inner', name', hd', σ, hσ, hσ'⟩

/-- A type that is the same as another is in its store. -/
theorem SameType.has_right (ht : t.Sound base) (h : s.SameType t id id') : t.table.Has id' := by
  obtain ⟨τ, _, hτ'⟩ := h
  exact hτ'.has ht

/-! ## Declared types -/

/-- A sound store holds everything that its table started with. -/
theorem Sound.extends (h : s.Sound base) : Extends { table := base } s :=
  ⟨h.grows, List.nil_prefix⟩

/-- A declared type is the same in all stores. -/
theorem Sound.sameType (hbase : base.Base) (hs : s.Sound base) (ht : t.Sound base)
    (hid : base.Has id) : s.SameType t id id := by
  obtain ⟨τ, hτ⟩ := (Sound.init hbase).unfolds hid
  exact ⟨τ, hτ.mono hs.extends, hτ.mono ht.extends⟩

/-- A declared type is the same as itself only. -/
theorem SameType.eq_iff (hbase : base.Base) (hs : s.Regular base) (ht : t.Regular base)
    (h : s.SameType t id id') {declared : TypeId} (hdeclared : base.Has declared) :
    id' = declared ↔ id = declared := by
  obtain ⟨τ, hτ, hτ'⟩ := h
  obtain ⟨σ, hσ, hσ'⟩ := hs.toSound.sameType hbase ht.toSound hdeclared
  constructor
  · rintro rfl
    obtain rfl := hτ'.unique ht.toSound hσ'
    exact hτ.injective hs hσ
  · rintro rfl
    obtain rfl := hτ.unique hs.toSound hσ
    exact hτ'.injective ht hσ'

/-- Only declared types have fields, so the fields are the same. -/
theorem SameType.findField (hbase : base.Base) (hs : s.Regular base) (ht : t.Regular base)
    (h : s.SameType t id id') (name : String) (isStatic : Bool) :
    t.table.findField id' name isStatic = s.table.findField id name isStatic := by
  rw [hs.grows.findField, ht.grows.findField]
  by_cases hid : base.Has id
  · rw [(h.eq_iff hbase hs ht hid).mpr rfl]
  · have hid' : ¬ base.Has id' := by
      intro hid'
      exact hid ((h.eq_iff hbase hs ht hid').mp rfl ▸ hid')
    have hnone : ∀ x, ¬ base.Has x → base.findField x name isStatic = none := by
      intro x hx
      by_contra hsome
      obtain ⟨f, hf⟩ := Option.ne_none_iff_exists'.mp hsome
      exact hx (hbase.findField hf).1
    rw [hnone id hid, hnone id' hid']

end Store

end AnonymousObjects
