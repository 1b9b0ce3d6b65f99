import AnonymousObjects.Proofs.Types.Interning

/-!
# Regular tables and stores

Whatever is looked up before it is created exists once. A table is `Regular` if no two of its types
are made alike and the names shown for pointers and nullable types come from the types that they are
built from; a store is regular if the same holds of its anonymous types. Each request keeps this
(`TypeTable.Regular.add` and the lemmas after it), and so does every operation of binding
(`Store.Regular.step`, `Store.Regular.reaches`).
-/

namespace AnonymousObjects

/-! ## Regular tables -/

/-- Two definitions make types that a look-up does not tell apart. Anonymous types are looked up by
their keys, so no two of them count as made alike here. -/
inductive TypeDef.MadeAlike : TypeDef → TypeDef → Prop where
  | named (d e : TypeDef) :
      d.shape.isNamed = true → e.shape.isNamed = true → d.name = e.name → MadeAlike d e
  | error (name) : MadeAlike ⟨.error, name⟩ ⟨.error, name⟩
  | pointer (target name name') : MadeAlike ⟨.pointer target, name⟩ ⟨.pointer target, name'⟩
  | nullable (inner name name') : MadeAlike ⟨.nullable inner, name⟩ ⟨.nullable inner, name'⟩

/-- Types are made alike both ways. -/
theorem TypeDef.MadeAlike.symm {d e : TypeDef} (h : d.MadeAlike e) : e.MadeAlike d := by
  cases h with
  | named _ _ hd he hname => exact .named _ _ he hd hname.symm
  | error name => exact .error name
  | pointer target name name' => exact .pointer target name' name
  | nullable inner name name' => exact .nullable inner name' name

namespace TypeTable

/-- No two types of the table are made alike, and the names that are shown for pointers and nullable
types are those of the types that they are built from, with a mark. -/
structure Regular (t : TypeTable) : Prop where
  apart : ∀ id id' d d', t.get? id = some d → t.get? id' = some d' → d.MadeAlike d' → id = id'
  pointers : ∀ id target name, t.get? id = some ⟨.pointer target, name⟩ →
    ∃ d, t.get? target = some d ∧ name = d.name ++ "*"
  nullables : ∀ id inner name, t.get? id = some ⟨.nullable inner, name⟩ →
    ∃ d, t.get? inner = some d ∧ name = d.name ++ "?"

variable {t u : TypeTable} {d : TypeDef} {id : TypeId}

/-- The empty table is regular. -/
theorem Regular.empty : Regular {} := by
  have hnone : ∀ id, get? {} id = none := by
    intro id
    simp [get?]
  exact ⟨by simp [hnone], by simp [hnone], by simp [hnone]⟩

/-- A type may be added that is made like none of the table. -/
theorem Regular.add (h : t.Regular) (hfresh : ∀ id e, t.get? id = some e → ¬ e.MadeAlike d)
    (hpointer : ∀ target, d.shape = .pointer target →
      ∃ e, t.get? target = some e ∧ d.name = e.name ++ "*")
    (hnullable : ∀ inner, d.shape = .nullable inner →
      ∃ e, t.get? inner = some e ∧ d.name = e.name ++ "?") : (t.add d).2.Regular where
  apart id id' e e' he he' halike := by
    -- Of two entries made alike, both are old, both are new, or the new one is like none there was.
    rcases get?_add_cases he with hold | ⟨hnew, rfl⟩
    · rcases get?_add_cases he' with hold' | ⟨hnew', rfl⟩
      · exact h.apart id id' e e' hold hold' halike
      · exact absurd halike (hfresh id e hold)
    · rcases get?_add_cases he' with hold' | ⟨hnew', rfl⟩
      · exact absurd halike.symm (hfresh id' e' hold')
      · rw [hnew, hnew']
  pointers id target name hget := by
    rcases get?_add_cases hget with hold | ⟨_, rfl⟩
    · obtain ⟨e, he, hname⟩ := h.pointers id target name hold
      exact ⟨e, get?_add_of_some he, hname⟩
    · obtain ⟨e, he, hname⟩ := hpointer target rfl
      exact ⟨e, get?_add_of_some he, hname⟩
  nullables id inner name hget := by
    rcases get?_add_cases hget with hold | ⟨_, rfl⟩
    · obtain ⟨e, he, hname⟩ := h.nullables id inner name hold
      exact ⟨e, get?_add_of_some he, hname⟩
    · obtain ⟨e, he, hname⟩ := hnullable inner rfl
      exact ⟨e, get?_add_of_some he, hname⟩

/-- What is not found has no property that it is looked for by. -/
theorem eq_false_of_find?_eq_none {p : TypeDef → Bool} (h : t.find? p = none)
    (hd : t.get? id = some d) : p d = false := by
  simp only [find?, Option.map_eq_none_iff, List.findIdx?_eq_none_iff] at h
  obtain ⟨i, _, hi⟩ := get?_eq_some_iff.mp hd
  exact h d (List.mem_of_getElem? hi)

/-- A named type may be declared under a name that is not in use. -/
theorem Regular.addNamed (h : t.Regular) {shape : TypeShape} {name : String}
    (hshape : shape.isNamed = true) (hname : t.lookup name = none) :
    (t.add ⟨shape, name⟩).2.Regular := by
  refine h.add ?_ ?_ ?_
  · intro id e he halike
    cases halike with
    | named _ _ hnamed _ heq =>
        have hother := eq_false_of_find?_eq_none hname he
        simp [hnamed, heq] at hother
    | error | pointer | nullable => cases hshape
  · intro target hpointer
    simp [show shape = .pointer target from hpointer, TypeShape.isNamed] at hshape
  · intro inner hnullable
    simp [show shape = .nullable inner from hnullable, TypeShape.isNamed] at hshape

/-- A type may be declared. -/
theorem Regular.declare (h : t.Regular) {shape : TypeShape} {name : String}
    {made : TypeId × TypeTable} (hshape : shape.isNamed = true)
    (hmade : t.declare shape name = .ok made) : made.2.Regular := by
  unfold TypeTable.declare at hmade
  cases hname : t.lookup name with
  | some id => simp [hname] at hmade
  | none =>
      simp only [hname, Except.ok.injEq] at hmade
      exact hmade ▸ h.addNamed hshape hname

/-- A type may get other fields. -/
theorem Regular.defineFields (h : t.Regular) (id : TypeId) (fields : List FieldSchema) :
    (t.defineFields id fields).Regular :=
  ⟨h.apart, h.pointers, h.nullables⟩

/-- The builtin types may be asked for. -/
theorem Regular.ensure (h : t.Regular) (b : Builtin) : (t.ensure b).2.Regular := by
  unfold TypeTable.ensure ensureNamed
  cases hname : t.lookup b.name with
  | some id => exact h
  | none => exact h.addNamed (by cases b <;> rfl) hname

/-- Every builtin type may be asked for at once. -/
theorem Regular.withBuiltins (h : t.Regular) : t.withBuiltins.Regular := by
  unfold TypeTable.withBuiltins
  induction Builtin.all generalizing t with
  | nil => exact h
  | cons b bs ih => exact ih (h.ensure b)

/-- The error type of a name may be asked for. -/
theorem Regular.ensureError (h : t.Regular) (name : String) : (t.ensureError name).2.Regular := by
  unfold TypeTable.ensureError
  rcases t.findOrAdd_cases (fun d => d.shape.isError && d.name == name) ⟨.error, name⟩ with
    ⟨_, _, _, _, hfound⟩ | ⟨hnone, hadded⟩
  · rwa [hfound]
  · rw [hadded]
    refine h.add ?_ (by simp) (by simp)
    intro id e he halike
    have hother := eq_false_of_find?_eq_none hnone he
    cases halike with
    | named _ _ _ hnamed => cases hnamed
    | error => simp [TypeShape.isError] at hother

/-- The type of pointers to a type may be asked for. -/
theorem Regular.pointerTo (h : t.Regular) {target : TypeId} {made : TypeId × TypeTable}
    (hmade : t.pointerTo target = .ok made) : made.2.Regular := by
  simp only [TypeTable.pointerTo, bind, Except.bind, pure, Except.pure] at hmade
  cases hget : t.get target with
  | error e => simp [hget] at hmade
  | ok d =>
      simp only [hget, Except.ok.injEq] at hmade
      subst hmade
      rcases t.findOrAdd_cases (·.shape = .pointer target) ⟨.pointer target, d.name ++ "*"⟩ with
        ⟨_, _, _, _, hfound⟩ | ⟨hnone, hadded⟩
      · rwa [hfound]
      · rw [hadded]
        refine h.add ?_ ?_ (by simp)
        · intro id e he halike
          have hother := eq_false_of_find?_eq_none hnone he
          cases halike with
          | named _ _ _ hnamed => cases hnamed
          | pointer => simp at hother
        · intro target' htarget
          obtain rfl : target = target' := by simpa using htarget
          exact ⟨d, get_eq_ok_iff.mp hget, rfl⟩

/-- The nullable type of a type may be asked for. -/
theorem Regular.nullableOf (h : t.Regular) {inner : TypeId} {made : TypeId × TypeTable}
    (hmade : t.nullableOf inner = .ok made) : made.2.Regular := by
  rcases nullableOf_cases hmade with ⟨d, hd, _, rfl⟩ | ⟨_, _, _, rfl⟩
  · rcases t.findOrAdd_cases (·.shape = .nullable inner) ⟨.nullable inner, d.name ++ "?"⟩ with
      ⟨_, _, _, _, hfound⟩ | ⟨hnone, hadded⟩
    · rwa [hfound]
    · rw [hadded]
      refine h.add ?_ (by simp) ?_
      · intro id e he halike
        have hother := eq_false_of_find?_eq_none hnone he
        cases halike with
        | named _ _ _ hnamed => cases hnamed
        | nullable => simp at hother
      · intro inner' hinner
        obtain rfl : inner = inner' := by simpa using hinner
        exact ⟨d, hd, rfl⟩
  · exact h

/-- An anonymous type may be added. -/
theorem Regular.addAnonymous (h : t.Regular) (name : String) (parts : List TypeId) :
    (t.add ⟨.anonymous parts, name⟩).2.Regular := by
  refine h.add ?_ (by simp) (by simp)
  intro id e he halike
  cases halike with
  | named _ _ _ hnamed => cases hnamed

end TypeTable

/-! ## Regular stores -/

namespace Store

/-- The types of a key are shown where the first is shown and the others are. -/
theorem displays_cons_iff {t : TypeTable} {name : String} {id : TypeId} {key : AnonymousKey}
    {shown : List String} :
    displays t ((name, id) :: key) = .ok shown ↔
      ∃ d others, t.get? id = some d ∧ displays t key = .ok others ∧ shown = d.name :: others := by
  constructor
  · intro h
    simp only [displays, bind, Except.bind, pure, Except.pure] at h
    cases hid : t.display id with
    | error e => simp [hid] at h
    | ok first =>
        cases hrest : displays t key with
        | error e => simp [hid, hrest] at h
        | ok others =>
            obtain ⟨d, hd, rfl⟩ := TypeTable.display_eq_ok_iff.mp hid
            simp only [hid, hrest, Except.ok.injEq] at h
            exact ⟨d, others, hd, rfl, h.symm⟩
  · rintro ⟨d, others, hd, hrest, rfl⟩
    have hid : t.display id = .ok d.name := TypeTable.display_eq_ok_iff.mpr ⟨d, hd, rfl⟩
    simp [displays, bind, Except.bind, pure, Except.pure, hid, hrest]

/-- Types are shown in a larger table as before. -/
theorem displays_mono {t u : TypeTable} (h : t.defs <+: u.defs) {key : AnonymousKey}
    {shown : List String} (hshown : displays t key = .ok shown) : displays u key = .ok shown := by
  induction key generalizing shown with
  | nil => exact hshown
  | cons pair key ih =>
      obtain ⟨d, others, hd, hrest, rfl⟩ := displays_cons_iff.mp hshown
      exact displays_cons_iff.mpr ⟨d, others, TypeTable.get?_mono h hd, ih hrest, rfl⟩

/-- The methods of a type are the same in every table with the same named types. -/
theorem methods_grows {t u : TypeTable} (h : t.HasBuiltins) (hg : t.Grows u) (owner : TypeId) :
    (methods u owner).1 = (methods t owner).1 := by
  have hensure : ∀ b : Builtin, u.ensure b = ((t.ensure b).1, u) := by
    intro b
    obtain ⟨id, hlookup, _, _⟩ := h.ensure b
    simp [TypeTable.ensure, TypeTable.ensureNamed, hg.lookup, hlookup]
  simp [methods, hensure, h.ensure_snd]

/-- What a store needs for its types to be told apart by what they are made of. -/
structure Regular (base : TypeTable) (s : Store) : Prop extends s.Sound base where
  table : s.table.Regular
  keys : (s.registry.types.map (·.key)).Nodup
  /-- An anonymous type is shown by what is shown for the types of its key. -/
  shown : ∀ a ∈ s.registry.types, ∃ shown, displays s.table a.key = .ok shown ∧
    s.table.get? a.id = some ⟨.anonymous (a.key.map (·.2)), displayName (a.key.map (·.1)) shown⟩
  templates : ∀ a ∈ s.registry.types, a.template.fieldNames = a.key.map (·.1)
  methods : ∀ a ∈ s.registry.types, a.methods = (methods base a.id).1

variable {base : TypeTable} {s s' : Store} {key : AnonymousKey} {span : Span} {a : AnonymousType}

/-- The store of regular declared types is regular. -/
theorem Regular.init (hbase : base.Base) (h : base.Regular) : Regular base { table := base } where
  toSound := .init hbase
  table := h
  keys := .nil
  shown := by simp
  templates := by simp
  methods := by simp

/-- The definition, the template and the methods of a created type. -/
theorem create_shown (hbuiltins : s.table.HasBuiltins) (h : s.create key span = .ok (a, s')) :
    ∃ shown, displays s.table key = .ok shown ∧
      s.table.add ⟨.anonymous (key.map (·.2)), displayName (key.map (·.1)) shown⟩ =
        (a.id, s'.table) ∧
      a.template.fieldNames = key.map (·.1) ∧ a.methods = (Store.methods s.table a.id).1 := by
  simp only [create, bind, Except.bind] at h
  cases hshown : displays s.table key with
  | error e => simp [hshown] at h
  | ok shown =>
      have hgrows := TypeTable.Grows.add s.table
        (d := ⟨.anonymous (key.map (·.2)), displayName (key.map (·.1)) shown⟩) rfl
      simp only [hshown, pure, Except.pure, Except.ok.injEq, Prod.mk.injEq,
        TypeTable.addAnonymous] at h
      obtain ⟨rfl, rfl⟩ := h
      refine ⟨shown, rfl, ?_, ?_, methods_grows hbuiltins hgrows _⟩
      · rw [methods_table (hbuiltins.grows hgrows)]
      · obtain ⟨t, _, hnames, hold⟩ | ⟨_, hadded⟩ := s.registry.templateFor_cases (key.map (·.1))
        · rw [hold]
          exact hnames
        · rw [hadded]

/-- An anonymous type may be created for a key that no type has. -/
theorem Regular.create (hbase : base.Base) (h : s.Regular base)
    (hkey : s.registry.find? key = none) (hcreate : s.create key span = .ok (a, s')) :
    s'.Regular base := by
  have hbuiltins := hbase.builtins.grows h.grows
  obtain ⟨hsound, hextends⟩ := h.toSound.create hbase hcreate
  obtain ⟨shown, hshown, hadd, htemplate, hmethods⟩ := create_shown hbuiltins hcreate
  have hcreated := created_of_create hcreate
  have htable : s'.table = (s.table.add
      ⟨.anonymous (key.map (·.2)), displayName (key.map (·.1)) shown⟩).2 := by rw [hadd]
  have hid : a.id = (s.table.add
      ⟨.anonymous (key.map (·.2)), displayName (key.map (·.1)) shown⟩).1 := by rw [hadd]
  -- All that is said of all types is known of the old ones; `create_shown` says it of the new one.
  have hcases : ∀ b ∈ s'.registry.types, b ∈ s.registry.types ∨ b = a := by
    intro b hb
    simpa [hcreated.types] using hb
  exact
    { toSound := hsound
      table := by
        rw [htable]
        exact h.table.addAnonymous _ _
      keys := by
        rw [hcreated.types, List.map_append, List.nodup_append]
        refine ⟨h.keys, List.pairwise_singleton _ _, ?_⟩
        intro first hfirst second hsecond
        obtain ⟨b, hb, rfl⟩ := List.mem_map.mp hfirst
        rw [List.map_singleton, List.mem_singleton] at hsecond
        rw [hsecond, hcreated.key_eq]
        simpa using List.find?_eq_none.mp hkey b hb
      shown := by
        intro b hb
        cases hcases b hb with
        | inl hb =>
            obtain ⟨names, hnames, hget⟩ := h.shown b hb
            exact ⟨names, displays_mono hcreated.defs hnames, hextends.table.get? hget⟩
        | inr hb =>
            rw [hb, hcreated.key_eq]
            refine ⟨shown, displays_mono hcreated.defs hshown, ?_⟩
            rw [htable, hid]
            exact TypeTable.get?_add _ _
      templates := by
        intro b hb
        cases hcases b hb with
        | inl hb => exact h.templates b hb
        | inr hb => rw [hb, hcreated.key_eq, htemplate]
      methods := by
        intro b hb
        cases hcases b hb with
        | inl hb => exact h.methods b hb
        | inr hb => rw [hb, hmethods, methods_grows hbase.builtins h.grows] }

/-- A regular store stays regular with a regular table that holds more types. -/
theorem Regular.withTable (h : s.Regular base) {t : TypeTable}
    (hsound : Sound base { s with table := t }) (hgrows : s.table.Grows t) (ht : t.Regular) :
    Regular base { s with table := t } where
  toSound := hsound
  table := ht
  keys := h.keys
  shown a ha := by
    obtain ⟨names, hnames, hget⟩ := h.shown a ha
    exact ⟨names, displays_mono hgrows.initial hnames, hgrows.get? hget⟩
  templates := h.templates
  methods := h.methods

/-- An operation keeps a store regular. -/
theorem Regular.step (hbase : base.Base) (h : s.Regular base) (hstep : Step s s') :
    s'.Regular base := by
  obtain ⟨hsound, hextends⟩ := h.toSound.step hbase hstep
  cases hstep with
  | ensure b =>
      refine h.withTable hsound hextends.table ?_
      rw [(hbase.builtins.grows h.grows).ensure_snd b]
      exact h.table
  | ensureError name => exact h.withTable hsound hextends.table (h.table.ensureError name)
  | nullableOf inner id table hmade =>
      exact h.withTable hsound hextends.table (h.table.nullableOf hmade)
  | intern fields span type _ hintern =>
      cases hfind : s.registry.find? (.ofFields fields) with
      | some b =>
          simp only [intern, hfind, pure, Except.pure, Except.ok.injEq, Prod.mk.injEq] at hintern
          exact hintern.2 ▸ h
      | none => exact h.create hbase hfind (by simpa [intern, hfind] using hintern)

/-- Every store that is reached from a regular one is regular. -/
theorem Regular.reaches (hbase : base.Base) (h : s.Regular base) (hreach : s.Reaches s') :
    s'.Regular base := by
  induction hreach with
  | refl => exact h
  | tail _ hstep ih => exact ih.step hbase hstep

/-- Types of the same key are the same. -/
theorem Regular.eq_of_key (h : s.Regular base) {b : AnonymousType} (ha : a ∈ s.registry.types)
    (hb : b ∈ s.registry.types) (hkey : a.key = b.key) : a = b :=
  List.inj_on_of_nodup_map h.keys ha hb hkey

end Store

end AnonymousObjects
