import AnonymousObjects.Proofs.Types.Regularity

/-!
# Types written out

Ids are given to types in order of creation, so the id of a type depends on what came before. What
does not is the `TypeStructure` that the id denotes: a term of names, in which no ids are left.
`s.Unfolds id τ` says that `id` denotes `τ` in the store `s`. An id of a sound store denotes one
structure (`Sound.unfolds`, `Unfolds.unique`) and keeps it in larger stores (`Unfolds.mono`); in a
regular store different ids denote different structures (`Unfolds.injective`).
-/

namespace AnonymousObjects

/-- A type written out: the name of a named type or of an error type, a pointer to a type, a
nullable type, or the names and types of the fields of an anonymous type in order. -/
inductive TypeStructure where
  | named (name : String)
  | error (name : String)
  | pointer (target : TypeStructure)
  | nullable (inner : TypeStructure)
  | anonymous (fields : List (String × TypeStructure))

namespace Store

mutual

/-- `s.Unfolds id τ` says that `id` denotes the structure `τ`. -/
inductive Unfolds (s : Store) : TypeId → TypeStructure → Prop where
  | named (id shape name) :
      s.table.get? id = some ⟨shape, name⟩ → shape.isNamed = true → Unfolds s id (.named name)
  | error (id name) : s.table.get? id = some ⟨.error, name⟩ → Unfolds s id (.error name)
  | pointer (id target name τ) :
      s.table.get? id = some ⟨.pointer target, name⟩ → Unfolds s target τ →
      Unfolds s id (.pointer τ)
  | nullable (id inner name τ) :
      s.table.get? id = some ⟨.nullable inner, name⟩ → Unfolds s inner τ →
      Unfolds s id (.nullable τ)
  | anonymous (id a fields) :
      a ∈ s.registry.types → a.id = id → UnfoldsKey s a.key fields →
      Unfolds s id (.anonymous fields)

/-- `s.UnfoldsKey key fields` says that the types of a key denote those of `fields`, which have the
same names. -/
inductive UnfoldsKey (s : Store) : AnonymousKey → List (String × TypeStructure) → Prop where
  | nil : UnfoldsKey s [] []
  | cons (name id τ key fields) :
      Unfolds s id τ → UnfoldsKey s key fields →
      UnfoldsKey s ((name, id) :: key) ((name, τ) :: fields)

end

variable {base : TypeTable} {s s' t t' u : Store} {id id' : TypeId} {d : TypeDef}
  {τ τ' : TypeStructure} {key key' : AnonymousKey} {fields fields' : List (String × TypeStructure)}
  {name : String}

/-! ## What the definition of a type says of its structure -/

/-- The definition that an id has, given the structure that it denotes. -/
inductive Outlines (d : TypeDef) : TypeStructure → Prop where
  | named : d.shape.isNamed = true → Outlines d (.named d.name)
  | error : d.shape = .error → Outlines d (.error d.name)
  | pointer (target τ) : d.shape = .pointer target → Outlines d (.pointer τ)
  | nullable (inner τ) : d.shape = .nullable inner → Outlines d (.nullable τ)
  | anonymous (parts fields) : d.shape = .anonymous parts → Outlines d (.anonymous fields)

/-- What a type unfolds to outlines its definition. -/
theorem Unfolds.outlines (hs : s.Sound base) (h : s.Unfolds id τ) :
    ∃ d, s.table.get? id = some d ∧ Outlines d τ := by
  cases h with
  | named _ shape name hd hnamed => exact ⟨_, hd, .named hnamed⟩
  | error _ name hd => exact ⟨_, hd, .error rfl⟩
  | pointer _ target name τ hd => exact ⟨_, hd, .pointer target τ rfl⟩
  | nullable _ inner name τ hd => exact ⟨_, hd, .nullable inner τ rfl⟩
  | anonymous _ a fields ha hid =>
      obtain ⟨name, hd⟩ := hs.registered a ha
      exact ⟨_, hid ▸ hd, .anonymous _ fields rfl⟩

/-- A type that unfolds is in the table. -/
theorem Unfolds.has (hs : s.Sound base) (h : s.Unfolds id τ) : s.table.Has id := by
  obtain ⟨d, hd, _⟩ := h.outlines hs
  exact ⟨d, hd⟩

/-- What a type unfolds to outlines the definition that it has. -/
theorem Unfolds.outlines_of_get? (hs : s.Sound base) (h : s.Unfolds id τ)
    (hd : s.table.get? id = some d) : Outlines d τ := by
  obtain ⟨e, he, houtlines⟩ := h.outlines hs
  rwa [Option.some.inj (hd.symm.trans he)]

/-- A named type unfolds to its name. -/
theorem Unfolds.eq_named (hs : s.Sound base) (h : s.Unfolds id τ) {shape : TypeShape}
    (hd : s.table.get? id = some ⟨shape, name⟩) (hnamed : shape.isNamed = true) :
    τ = .named name := by
  cases h.outlines_of_get? hs hd with
  | named => rfl
  | error hshape | pointer _ _ hshape | nullable _ _ hshape | anonymous _ _ hshape =>
      simp [show shape = _ from hshape, TypeShape.isNamed] at hnamed

/-- An error type unfolds to the mistake of its name. -/
theorem Unfolds.eq_error (hs : s.Sound base) (h : s.Unfolds id τ)
    (hd : s.table.get? id = some ⟨.error, name⟩) : τ = .error name := by
  cases h.outlines_of_get? hs hd with
  | named hnamed => cases hnamed
  | error => rfl
  | pointer _ _ hshape | nullable _ _ hshape | anonymous _ _ hshape => cases hshape

/-- A pointer type unfolds to a pointer to what its target unfolds to. -/
theorem Unfolds.of_pointer (hs : s.Sound base) (h : s.Unfolds id τ) {target : TypeId}
    (hd : s.table.get? id = some ⟨.pointer target, name⟩) :
    ∃ τ', τ = .pointer τ' ∧ s.Unfolds target τ' := by
  cases h.outlines_of_get? hs hd with
  | named hnamed => cases hnamed
  | error hshape | nullable _ _ hshape | anonymous _ _ hshape => cases hshape
  | pointer =>
      cases h with
      | pointer _ target' name' τ' hd' hτ' =>
          have heq := congrArg TypeDef.shape (Option.some.inj (hd.symm.trans hd'))
          exact ⟨_, rfl, TypeShape.pointer.inj heq ▸ hτ'⟩

/-- A nullable type unfolds to the nullable type of what it has inside. -/
theorem Unfolds.of_nullable (hs : s.Sound base) (h : s.Unfolds id τ) {inner : TypeId}
    (hd : s.table.get? id = some ⟨.nullable inner, name⟩) :
    ∃ τ', τ = .nullable τ' ∧ s.Unfolds inner τ' := by
  cases h.outlines_of_get? hs hd with
  | named hnamed => cases hnamed
  | error hshape | pointer _ _ hshape | anonymous _ _ hshape => cases hshape
  | nullable =>
      cases h with
      | nullable _ inner' name' τ' hd' hτ' =>
          have heq := congrArg TypeDef.shape (Option.some.inj (hd.symm.trans hd'))
          exact ⟨_, rfl, TypeShape.nullable.inj heq ▸ hτ'⟩

/-- An anonymous type unfolds to the fields of its key. -/
theorem Unfolds.of_anonymous (hs : s.Sound base) {a : AnonymousType} (ha : a ∈ s.registry.types)
    (h : s.Unfolds a.id τ) : ∃ fields, τ = .anonymous fields ∧ s.UnfoldsKey a.key fields := by
  obtain ⟨name, hd⟩ := hs.registered a ha
  cases h.outlines_of_get? hs hd with
  | named hnamed => cases hnamed
  | error hshape | pointer _ _ hshape | nullable _ _ hshape => cases hshape
  | anonymous =>
      cases h with
      | anonymous _ b fields hb hid hkey =>
          obtain rfl := hs.eq_of_id hb ha hid
          exact ⟨_, rfl, hkey⟩

/-! ## Every type denotes one structure -/

mutual

/-- An id keeps its structure in a larger store. -/
theorem Unfolds.mono {id : TypeId} {τ : TypeStructure} (h : s.Unfolds id τ)
    (hext : s.Extends s') : s'.Unfolds id τ := by
  match h with
  | .named _ shape name hd hnamed => exact .named _ shape name (hext.table.get? hd) hnamed
  | .error _ name hd => exact .error _ name (hext.table.get? hd)
  | .pointer _ target name τ hd hτ =>
      exact .pointer _ target name τ (hext.table.get? hd) (hτ.mono hext)
  | .nullable _ inner name τ hd hτ =>
      exact .nullable _ inner name τ (hext.table.get? hd) (hτ.mono hext)
  | .anonymous _ a fields ha hid hkey =>
      exact .anonymous _ a fields (hext.types.subset ha) hid (hkey.mono hext)

/-- A key unfolds to the same fields in a store with more types. -/
theorem UnfoldsKey.mono {key : AnonymousKey} {fields : List (String × TypeStructure)}
    (h : s.UnfoldsKey key fields) (hext : s.Extends s') : s'.UnfoldsKey key fields := by
  match h with
  | .nil => exact .nil
  | .cons name id τ key fields hid hkey =>
      exact .cons name id τ key fields (hid.mono hext) (hkey.mono hext)

end

/-- A key whose types denote structures denotes a list of fields. -/
theorem unfoldsKey_of_unfolds (h : ∀ pair ∈ key, ∃ τ, s.Unfolds pair.2 τ) :
    ∃ fields, s.UnfoldsKey key fields := by
  induction key with
  | nil => exact ⟨[], .nil⟩
  | cons pair key ih =>
      obtain ⟨τ, hτ⟩ := h pair (by simp)
      obtain ⟨fields, hfields⟩ := ih fun pair hpair => h pair (by simp [hpair])
      exact ⟨_, .cons pair.1 pair.2 τ key fields hτ hfields⟩

/-- Every type of a sound store denotes a structure. -/
theorem Sound.unfolds (hs : s.Sound base) (hid : s.table.Has id) : ∃ τ, s.Unfolds id τ := by
  obtain ⟨d, hd⟩ := hid
  obtain ⟨i, rfl, hi⟩ := TypeTable.get?_eq_some_iff.mp hd
  -- A type is built from types with lower indices.
  induction i using Nat.strongRecOn generalizing d with
  | _ i ih =>
      have hparts : ∀ part ∈ d.shape.arguments, ∃ τ, s.Unfolds part τ := by
        intro part hpart
        obtain ⟨j, hj, rfl⟩ := hs.ordered i d hi part hpart
        have hlt : i < s.table.defs.length := (List.getElem?_eq_some_iff.mp hi).1
        have hget : s.table.defs[j]? = some s.table.defs[j] := List.getElem?_eq_getElem (by omega)
        exact ih j hj _ hget hget
      obtain ⟨shape, name⟩ := d
      cases shape with
      | value | reference | void | restricted => exact ⟨_, .named _ _ _ hd rfl⟩
      | error => exact ⟨_, .error _ name hd⟩
      | pointer target =>
          obtain ⟨τ, hτ⟩ := hparts target (by simp [TypeShape.arguments])
          exact ⟨_, .pointer _ target name τ hd hτ⟩
      | nullable inner =>
          obtain ⟨τ, hτ⟩ := hparts inner (by simp [TypeShape.arguments])
          exact ⟨_, .nullable _ inner name τ hd hτ⟩
      | anonymous parts =>
          obtain ⟨a, ha, haid⟩ := hs.anonymous _ parts name hd
          obtain ⟨name', hregistered⟩ := hs.registered a ha
          rw [haid, hd] at hregistered
          obtain ⟨rfl, rfl⟩ : parts = a.key.map (·.2) ∧ name = name' := by simpa using hregistered
          obtain ⟨fields, hfields⟩ := unfoldsKey_of_unfolds (s := s) fun pair hpair =>
            hparts pair.2 (List.mem_map_of_mem hpair)
          exact ⟨_, .anonymous _ a fields ha haid hfields⟩

mutual

/-- An id denotes at most one structure. -/
theorem Unfolds.unique (hs : s.Sound base) {id : TypeId} {τ τ' : TypeStructure}
    (h : s.Unfolds id τ) (h' : s.Unfolds id τ') : τ = τ' := by
  match h with
  | .named _ shape name hd hnamed => exact (h'.eq_named hs hd hnamed).symm
  | .error _ name hd => exact (h'.eq_error hs hd).symm
  | .pointer _ target name τ hd hτ =>
      obtain ⟨τ', rfl, hτ'⟩ := h'.of_pointer hs hd
      rw [hτ.unique hs hτ']
  | .nullable _ inner name τ hd hτ =>
      obtain ⟨τ', rfl, hτ'⟩ := h'.of_nullable hs hd
      rw [hτ.unique hs hτ']
  | .anonymous _ a fields ha hid hkey =>
      subst hid
      obtain ⟨fields', rfl, hkey'⟩ := h'.of_anonymous hs ha
      rw [hkey.unique hs hkey']

/-- A key unfolds to one list of fields only. -/
theorem UnfoldsKey.unique (hs : s.Sound base) {key : AnonymousKey}
    {fields fields' : List (String × TypeStructure)} (h : s.UnfoldsKey key fields)
    (h' : s.UnfoldsKey key fields') : fields = fields' := by
  match h with
  | .nil =>
      cases h' with
      | nil => rfl
  | .cons name id τ key fields hid hkey =>
      cases h' with
      | cons _ _ τ' _ fields' hid' hkey' => rw [hid.unique hs hid', hkey.unique hs hkey']

end

mutual

/-- Different ids of a regular store denote different structures. -/
theorem Unfolds.injective (hs : s.Regular base) {id id' : TypeId} {τ : TypeStructure}
    (h : s.Unfolds id τ) (h' : s.Unfolds id' τ) : id = id' := by
  match h with
  | .named _ shape name hd hnamed =>
      cases h' with
      | named _ shape' _ hd' hnamed' =>
          exact hs.table.apart _ _ _ _ hd hd' (.named _ _ hnamed hnamed' rfl)
  | .error _ name hd =>
      cases h' with
      | error _ _ hd' => exact hs.table.apart _ _ _ _ hd hd' (.error name)
  | .pointer _ target name τ hd hτ =>
      cases h' with
      | pointer _ target' name' _ hd' hτ' =>
          obtain rfl := hτ.injective hs hτ'
          exact hs.table.apart _ _ _ _ hd hd' (.pointer target name name')
  | .nullable _ inner name τ hd hτ =>
      cases h' with
      | nullable _ inner' name' _ hd' hτ' =>
          obtain rfl := hτ.injective hs hτ'
          exact hs.table.apart _ _ _ _ hd hd' (.nullable inner name name')
  | .anonymous _ a fields ha hid hkey =>
      cases h' with
      | anonymous _ b _ hb hid' hkey' =>
          rw [← hid, ← hid', hs.eq_of_key ha hb (hkey.injective hs hkey')]

/-- Different keys of a regular store denote different lists of fields. -/
theorem UnfoldsKey.injective (hs : s.Regular base) {key key' : AnonymousKey}
    {fields : List (String × TypeStructure)} (h : s.UnfoldsKey key fields)
    (h' : s.UnfoldsKey key' fields) : key = key' := by
  match h with
  | .nil =>
      cases h' with
      | nil => rfl
  | .cons name id τ key fields hid hkey =>
      cases h' with
      | cons _ id' _ key' _ hid' hkey' => rw [hid.injective hs hid', hkey.injective hs hkey']

end

end Store

end AnonymousObjects
