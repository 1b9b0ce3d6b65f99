import AnonymousObjects.Proofs.Types.Operations
import AnonymousObjects.Proofs.Types.Stores
import Mathlib.Data.List.Nodup

/-!
# What the registry holds after any run

Starting with an empty store, tables and registries may be used in any order, and requests may be
refused on the way. `Recorded` is what every operation keeps: the registry holds one type for each
key that has been asked for, and one template for each list of names, in the order of the first
requests. `run_coherent` says what this means for the types, their ids, their templates and
their members, and that a key asked for again changes nothing.
-/

namespace AnonymousObjects

section FirstOccurrences

variable {α : Type} [BEq α] [LawfulBEq α] {xs : List α} {x : α}

/-- An item that has occurred is not listed again. -/
theorem eraseDups_snoc_of_mem (h : x ∈ xs) : (xs ++ [x]).eraseDups = xs.eraseDups := by
  simp [List.eraseDups_append, List.removeAll, h]

/-- An item that has not occurred is listed last. -/
theorem eraseDups_snoc_of_not_mem (h : x ∉ xs) : (xs ++ [x]).eraseDups = xs.eraseDups ++ [x] := by
  simp [List.eraseDups_append, List.removeAll, h, List.eraseDups_cons]

end FirstOccurrences

namespace TypeTable

/-- A type of the table is numbered no higher than there are types. -/
theorem Has.number_le {t : TypeTable} {id : TypeId} (h : t.Has id) : id.number ≤ t.size := by
  obtain ⟨d, hd⟩ := h
  obtain ⟨i, rfl, hi⟩ := get?_eq_some_iff.mp hd
  have hlt : i < t.defs.length := (List.getElem?_eq_some_iff.mp hi).1
  show ((i : Int) + 1) ≤ t.defs.length
  omega

end TypeTable

namespace Registry

/-- The template of a list of names is one of those there are, or a new one at the next index. -/
theorem templateFor_cases (r : Registry) (names : List String) :
    (∃ t ∈ r.templates, t.fieldNames = names ∧ r.templateFor names = (t, r)) ∨
      ((∀ t ∈ r.templates, t.fieldNames ≠ names) ∧
        r.templateFor names = (⟨r.templates.length, names⟩,
          { r with templates := r.templates ++ [⟨r.templates.length, names⟩] })) := by
  unfold templateFor
  cases h : r.templates.find? (·.fieldNames = names) with
  | none =>
      refine .inr ⟨fun t ht => ?_, rfl⟩
      simpa using List.find?_eq_none.mp h t ht
  | some t => exact .inl ⟨t, List.mem_of_find?_eq_some h, by simpa using List.find?_some h, rfl⟩

end Registry

namespace Store

variable {s s' : Store} {key : AnonymousKey} {span : Span} {a : AnonymousType}
  {log : List (AnonymousKey × Span)}

/-- The types in the signatures of methods come after the others. -/
theorem defs_methods (t : TypeTable) (owner : TypeId) : t.defs <+: (methods t owner).2.defs :=
  (((t.defs_ensure .object).trans (TypeTable.defs_ensure _ .bool)).trans
    (TypeTable.defs_ensure _ .int)).trans (TypeTable.defs_ensure _ .string)

/-- The type `a` has been created for a key, which changes `s` into `s'`. -/
structure Created (s : Store) (key : AnonymousKey) (span : Span) (a : AnonymousType) (s' : Store) :
    Prop where
  key_eq : a.key = key
  span_eq : a.span = span
  built : a.Built
  id : a.id = .ofIndex s.table.size
  registered : a.Registered s'.table
  defs : s.table.defs <+: s'.table.defs
  types : s'.registry.types = s.registry.types ++ [a]
  template : a.template = (s.registry.templateFor (key.map (·.1))).1
  templates : s'.registry.templates = (s.registry.templateFor (key.map (·.1))).2.templates

/-- What the creation of a type does, whether or not the builtin types are there already. -/
theorem created_of_create (h : s.create key span = .ok (a, s')) : s.Created key span a s' := by
  simp only [create, bind, Except.bind] at h
  cases hshown : displays s.table key with
  | error e => simp [hshown] at h
  | ok shown =>
      simp only [hshown, pure, Except.pure, Except.ok.injEq, Prod.mk.injEq,
        TypeTable.addAnonymous] at h
      obtain ⟨rfl, rfl⟩ := h
      have hkey := key_properties (.ofIndex s.table.size) 0 key
      have hnew := s.table.get?_add
        ⟨.anonymous (key.map (·.2)), displayName (key.map (·.1)) shown⟩
      -- Making the methods may add builtin types behind the new one, so its entry is read off a
      -- prefix.
      have hmore := defs_methods (s.table.add
        ⟨.anonymous (key.map (·.2)), displayName (key.map (·.1)) shown⟩).2 (.ofIndex s.table.size)
      exact
        { key_eq := hkey
          span_eq := rfl
          built :=
            { properties := congrArg (properties _ 0) hkey.symm
              constructor :=
                congrArg (fun key : AnonymousKey => (⟨key.map (·.2), _⟩ : Constructor)) hkey.symm }
          id := rfl
          registered := by
            refine ⟨displayName (key.map (·.1)) shown, (TypeTable.get?_mono hmore hnew).trans ?_⟩
            exact congrArg
              (fun key : AnonymousKey => some (⟨.anonymous (key.map (·.2)), _⟩ : TypeDef)) hkey.symm
          defs := (s.table.defs_add _).trans hmore
          types := by
            obtain ⟨t, _, _, hold⟩ | ⟨_, hadded⟩ := s.registry.templateFor_cases (key.map (·.1))
            · rw [hold]
            · rw [hadded]
          template := rfl
          templates := rfl }

/-! ## The invariant -/

/-- What a store and the requests granted so far have in common. -/
structure Recorded (s : Store) (log : List (AnonymousKey × Span)) : Prop where
  built : ∀ a ∈ s.registry.types, a.Built
  registered : ∀ a ∈ s.registry.types, a.Registered s.table
  ids : s.registry.types.Pairwise (·.id.number < ·.id.number)
  keys : s.registry.types.map (·.key) = (log.map (·.1)).eraseDups
  distinct : (s.registry.types.map (·.key)).Nodup
  spans : ∀ a ∈ s.registry.types, log.find? (·.1 = a.key) = some (a.key, a.span)
  templates : ∀ a ∈ s.registry.types,
    a.template ∈ s.registry.templates ∧ a.template.fieldNames = a.key.map (·.1)
  indices : s.registry.templates.map (·.index) = List.range s.registry.templates.length
  names : s.registry.templates.map (·.fieldNames) =
    (log.map fun request => request.1.map (·.1)).eraseDups
  distinctNames : (s.registry.templates.map (·.fieldNames)).Nodup

/-- Nothing is recorded of an empty store. -/
theorem Recorded.empty : Recorded {} [] where
  built := by simp
  registered := by simp
  ids := .nil
  keys := rfl
  distinct := .nil
  spans := by simp
  templates := by simp
  indices := rfl
  names := rfl
  distinctNames := .nil

/-- A key has been asked for if and only if there is a type of this key. -/
theorem Recorded.mem_log_iff (h : s.Recorded log) :
    key ∈ log.map (·.1) ↔ ∃ a ∈ s.registry.types, a.key = key := by
  rw [← List.mem_eraseDups, ← h.keys, List.mem_map]

/-- Names were asked for where there is a template of them. -/
theorem Recorded.mem_names_iff (h : s.Recorded log) {names : List String} :
    names ∈ log.map (fun request => request.1.map (·.1)) ↔
      ∃ t ∈ s.registry.templates, t.fieldNames = names := by
  rw [← List.mem_eraseDups, ← h.names, List.mem_map]

/-- Types with the same key are the same. -/
theorem Recorded.eq_of_key (h : s.Recorded log) {b : AnonymousType} (ha : a ∈ s.registry.types)
    (hb : b ∈ s.registry.types) (hkey : a.key = b.key) : a = b :=
  List.inj_on_of_nodup_map h.distinct ha hb hkey

/-- A key finds the type that has it. -/
theorem Recorded.find?_iff (h : s.Recorded log) :
    s.registry.find? key = some a ↔ a ∈ s.registry.types ∧ a.key = key := by
  constructor
  · intro hfind
    exact ⟨List.mem_of_find?_eq_some hfind, by simpa using List.find?_some hfind⟩
  · intro ⟨ha, hkey⟩
    cases hfind : s.registry.find? key with
    | none => exact absurd hkey (by simpa using List.find?_eq_none.mp hfind a ha)
    | some b =>
        have hb : b.key = key := by simpa using List.find?_some hfind
        have hmem : b ∈ s.registry.types := List.mem_of_find?_eq_some hfind
        rw [h.eq_of_key hmem ha (hb.trans hkey.symm)]

/-! ## Steps and runs -/

/-- Types may be added to the table besides those of the registry. -/
theorem Recorded.withTable (h : s.Recorded log) {t : TypeTable} (hdefs : s.table.defs <+: t.defs) :
    Recorded { s with table := t } log :=
  { h with
    registered := by
      intro a ha
      obtain ⟨name, hget⟩ := h.registered a ha
      exact ⟨name, TypeTable.get?_mono hdefs hget⟩ }

/-- A key that has been asked for may be asked for again. -/
theorem Recorded.again (h : s.Recorded log) (hkey : key ∈ log.map (·.1)) (span : Span) :
    s.Recorded (log ++ [(key, span)]) := by
  have hnames : key.map (·.1) ∈ log.map fun request => request.1.map (·.1) := by
    obtain ⟨request, hrequest, rfl⟩ := List.mem_map.mp hkey
    exact List.mem_map.mpr ⟨request, hrequest, rfl⟩
  exact
    { h with
      keys := by
        rw [List.map_append, List.map_singleton, eraseDups_snoc_of_mem hkey]
        exact h.keys
      spans := fun a ha => by simp [List.find?_append, h.spans a ha]
      names := by
        rw [List.map_append, List.map_singleton, eraseDups_snoc_of_mem hnames]
        exact h.names }

/-- A type is created after all others. -/
theorem Recorded.number_lt (h : s.Recorded log) (hcreated : s.Created key span a s')
    {b : AnonymousType} (hb : b ∈ s.registry.types) : b.id.number < a.id.number := by
  obtain ⟨name, hget⟩ := h.registered b hb
  have hle : b.id.number ≤ s.table.size := TypeTable.Has.number_le ⟨_, hget⟩
  rw [hcreated.id]
  show b.id.number < (s.table.size : Int) + 1
  omega

/-- A template is added when its names are asked for first. -/
theorem Recorded.template (h : s.Recorded log) (hcreated : s.Created key span a s') :
    a.template ∈ s'.registry.templates ∧ a.template.fieldNames = key.map (·.1) ∧
      s.registry.templates <+: s'.registry.templates ∧
      s'.registry.templates.map (·.index) = List.range s'.registry.templates.length ∧
      s'.registry.templates.map (·.fieldNames) =
        ((log ++ [(key, span)]).map fun request => request.1.map (·.1)).eraseDups ∧
      (s'.registry.templates.map (·.fieldNames)).Nodup := by
  have htemplate := hcreated.template
  have htemplates := hcreated.templates
  rw [List.map_append, List.map_singleton]
  -- Either the names have been asked for, and the template found is theirs, or it is a new one with
  -- the next number.
  obtain ⟨t, ht, hnames, hfound⟩ | ⟨hnew, hadded⟩ :=
    s.registry.templateFor_cases (key.map (·.1))
  · rw [hfound] at htemplate htemplates
    rw [htemplate, htemplates, eraseDups_snoc_of_mem (h.mem_names_iff.mpr ⟨t, ht, hnames⟩)]
    exact ⟨ht, hnames, List.prefix_rfl, h.indices, h.names, h.distinctNames⟩
  · rw [hadded] at htemplate htemplates
    have hfresh : key.map (·.1) ∉ log.map fun request => request.1.map (·.1) := by
      intro hmem
      obtain ⟨t, ht, hnames⟩ := h.mem_names_iff.mp hmem
      exact hnew t ht hnames
    rw [htemplate, htemplates, eraseDups_snoc_of_not_mem hfresh, ← h.names]
    refine ⟨by simp, rfl, ⟨_, rfl⟩, ?_, by simp, ?_⟩
    · simp [h.indices, List.range_succ]
    · rw [List.map_append, List.nodup_append]
      refine ⟨h.distinctNames, List.pairwise_singleton _ _, ?_⟩
      intro names hmem other hother
      obtain ⟨t, ht, rfl⟩ := List.mem_map.mp hmem
      rw [List.map_singleton, List.mem_singleton] at hother
      rw [hother]
      exact hnew t ht

/-- A type is created for a key that has not been asked for. -/
theorem Recorded.create (h : s.Recorded log) (hkey : key ∉ log.map (·.1))
    (hcreated : s.Created key span a s') : s'.Recorded (log ++ [(key, span)]) := by
  obtain ⟨htemplate, hnames, hinitial, hindices, hall, hdistinct⟩ := h.template hcreated
  have hold : ∀ b ∈ s.registry.types, b.key ≠ key := by
    intro b hb hbkey
    exact hkey (h.mem_log_iff.mpr ⟨b, hb, hbkey⟩)
  -- Everything the invariant says of all types is known of the old ones and read off the creation
  -- for the new one.
  have hcases : ∀ b ∈ s'.registry.types, b ∈ s.registry.types ∨ b = a := by
    intro b hb
    simpa [hcreated.types] using hb
  exact
    { built := by
        intro b hb
        cases hcases b hb with
        | inl hb => exact h.built b hb
        | inr hb => exact hb ▸ hcreated.built
      registered := by
        intro b hb
        cases hcases b hb with
        | inl hb =>
            obtain ⟨name, hget⟩ := h.registered b hb
            exact ⟨name, TypeTable.get?_mono hcreated.defs hget⟩
        | inr hb => exact hb ▸ hcreated.registered
      ids := by
        rw [hcreated.types, List.pairwise_append]
        refine ⟨h.ids, List.pairwise_singleton _ _, ?_⟩
        intro b hb c hc
        rw [List.mem_singleton.mp hc]
        exact h.number_lt hcreated hb
      keys := by
        rw [hcreated.types, List.map_append, List.map_append, List.map_singleton,
          List.map_singleton, eraseDups_snoc_of_not_mem hkey, h.keys, hcreated.key_eq]
      distinct := by
        rw [hcreated.types, List.map_append, List.nodup_append]
        refine ⟨h.distinct, List.pairwise_singleton _ _, ?_⟩
        intro first hfirst second hsecond
        obtain ⟨b, hb, rfl⟩ := List.mem_map.mp hfirst
        rw [List.map_singleton, List.mem_singleton] at hsecond
        rw [hsecond, hcreated.key_eq]
        exact hold b hb
      spans := by
        intro b hb
        cases hcases b hb with
        | inl hb => simp [List.find?_append, h.spans b hb]
        | inr hb =>
            -- The new request is the first one for its key, so its span is the one that counts.
            have hnone : log.find? (·.1 = key) = none := by
              rw [List.find?_eq_none]
              intro request hrequest
              simpa using fun heq => hkey (List.mem_map.mpr ⟨request, hrequest, heq⟩)
            simp [hb, hcreated.key_eq, hcreated.span_eq, List.find?_append, hnone]
      templates := by
        intro b hb
        cases hcases b hb with
        | inl hb =>
            obtain ⟨hmem, hfields⟩ := h.templates b hb
            exact ⟨hinitial.subset hmem, hfields⟩
        | inr hb => exact hb ▸ ⟨htemplate, hcreated.key_eq ▸ hnames⟩
      indices := hindices
      names := hall
      distinctNames := hdistinct }

/-- An operation keeps what is recorded, and records the request if it is granted. -/
theorem Recorded.after (h : s.Recorded log) (op : Operation) :
    (s.after op).Recorded (log ++ (s.request? op).toList) := by
  cases op with
  | table op => simpa [Store.after, request?] using h.withTable (s.table.defs_after op)
  | intern fields span =>
      cases hintern : s.intern fields span with
      | error e => simpa [Store.after, request?, hintern] using h
      | ok made =>
          obtain ⟨a, s'⟩ := made
          simp only [Store.after, request?, hintern, Option.toList_some]
          cases hfind : s.registry.find? (.ofFields fields) with
          | some b =>
              simp only [intern, hfind, pure, Except.pure, Except.ok.injEq,
                Prod.mk.injEq] at hintern
              obtain ⟨rfl, rfl⟩ := hintern
              -- A key that has a type is asked for again: the log gets longer and its first
              -- requests do not change.
              obtain ⟨hb, hkey⟩ := h.find?_iff.mp hfind
              exact h.again (h.mem_log_iff.mpr ⟨b, hb, hkey⟩) span
          | none =>
              have hcreate : s.create (.ofFields fields) span = .ok (a, s') := by
                simpa [intern, hfind] using hintern
              refine h.create ?_ (created_of_create hcreate)
              intro hmem
              obtain ⟨b, hb, hkey⟩ := h.mem_log_iff.mp hmem
              rw [h.find?_iff.mpr ⟨hb, hkey⟩] at hfind
              cases hfind

/-- Any run of operations keeps what is recorded. -/
theorem Recorded.run (h : s.Recorded log) (ops : List Operation) :
    (s.run ops).Recorded (log ++ s.requests ops) := by
  induction ops generalizing s log with
  | nil => simpa [Store.run, requests] using h
  | cons op ops ih =>
      have hrest := ih (h.after op)
      rwa [List.append_assoc] at hrest

/-! ## Runs from the empty store -/

/-- The members of an anonymous type of a store are those of its key, and so is its definition. -/
structure Member (s : Store) (a : AnonymousType) : Prop where
  /-- The names of the template are those of the key. -/
  template : a.template.fieldNames = a.key.map (·.1)
  /-- There is a property for each name and type of the key, with its index and its owner. -/
  properties : ∀ i : Nat, a.properties[i]? = a.key[i]?.map fun (name, type) => ⟨name, i, type, a.id⟩
  /-- There is one constructor, which takes the types of the key. -/
  constructor : ∀ c, .constructor c ∈ a.members ↔ c = ⟨a.key.map (·.2), a.id⟩
  /-- The table has an anonymous type built from the types of the key. -/
  registered : ∃ name, s.table.get? a.id = some ⟨.anonymous (a.key.map (·.2)), name⟩

/-- What holds of a registry and its table after requests for the keys in `log`. -/
structure Coherent (s : Store) (log : List (AnonymousKey × Span)) : Prop where
  /-- A type is found under its own key and under no other. -/
  stored : ∀ key a, s.registry.find? key = some a ↔ a ∈ s.registry.types ∧ a.key = key
  members : ∀ a ∈ s.registry.types, s.Member a
  /-- Types of different keys have different ids. -/
  distinct : ∀ a ∈ s.registry.types, ∀ b ∈ s.registry.types, a.key ≠ b.key → a.id ≠ b.id
  /-- Types share a template if and only if they have the same names in the same order. -/
  shared : ∀ a ∈ s.registry.types, ∀ b ∈ s.registry.types,
    a.template = b.template ↔ a.key.map (·.1) = b.key.map (·.1)
  /-- Templates are numbered from zero on. -/
  indices : s.registry.templates.map (·.index) = List.range s.registry.templates.length
  /-- Templates stand in the order in which their names were first asked for. -/
  templates : s.registry.templates.map (·.fieldNames) =
    (log.map fun request => request.1.map (·.1)).eraseDups
  /-- Types stand in the order in which their keys were first asked for. -/
  types : s.registry.types.map (·.key) = (log.map (·.1)).eraseDups
  /-- The order of the ids is that order. -/
  sorted : s.registry.types.mergeSort (fun a b => decide (a.id.number ≤ b.id.number)) =
    s.registry.types
  /-- A key that has been asked for is found with the place of the first request, whatever else the
  fields say, and nothing changes. -/
  again : ∀ a ∈ s.registry.types, log.find? (·.1 = a.key) = some (a.key, a.span) ∧
    ∀ fields span, AnonymousKey.ofFields fields = a.key → s.intern fields span = .ok (a, s)

/-- The only constructor among the members is that of the type. -/
theorem constructor_mem_members {a : AnonymousType} {c : Constructor} :
    .constructor c ∈ a.members ↔ c = a.constructor := by
  simp [AnonymousType.members]

/-- The members of a type are those of its key. -/
theorem Recorded.member (h : s.Recorded log) (ha : a ∈ s.registry.types) : s.Member a where
  template := (h.templates a ha).2
  properties i := by
    rw [(h.built a ha).properties, getElem?_properties]
    simp
  constructor c := by rw [constructor_mem_members, (h.built a ha).constructor]
  registered := h.registered a ha

/-- Templates with the same names are the same. -/
theorem Recorded.template_eq_iff (h : s.Recorded log) {b : AnonymousType}
    (ha : a ∈ s.registry.types) (hb : b ∈ s.registry.types) :
    a.template = b.template ↔ a.key.map (·.1) = b.key.map (·.1) := by
  obtain ⟨hmem, hnames⟩ := h.templates a ha
  obtain ⟨hmem', hnames'⟩ := h.templates b hb
  rw [← hnames, ← hnames']
  constructor
  · intro heq
    rw [heq]
  · intro heq
    exact List.inj_on_of_nodup_map h.distinctNames hmem hmem' heq

/-- Types of different keys are different. -/
theorem Recorded.id_ne (h : s.Recorded log) {b : AnonymousType} (ha : a ∈ s.registry.types)
    (hb : b ∈ s.registry.types) (hkey : a.key ≠ b.key) : a.id ≠ b.id := by
  have hids : (s.registry.types.map (·.id)).Nodup := by
    rw [List.Nodup, List.pairwise_map]
    exact h.ids.imp fun hlt heq => absurd (heq ▸ hlt) (Int.lt_irrefl _)
  intro hid
  exact hkey (congrArg _ (List.inj_on_of_nodup_map hids ha hb hid))

/-- After any run of operations on an empty table and its registry, the registry holds a type for
each key that was asked for, and the table its definition. -/
theorem run_coherent (ops : List Operation) : (run {} ops).Coherent (requests {} ops) := by
  have h : (run {} ops).Recorded (requests {} ops) := Recorded.empty.run ops
  exact
    { stored := fun key a => h.find?_iff
      members := fun a ha => h.member ha
      distinct := fun a ha b hb => h.id_ne ha hb
      shared := fun a ha b hb => h.template_eq_iff ha hb
      indices := h.indices
      templates := h.names
      types := h.keys
      sorted := by
        refine List.mergeSort_of_pairwise (h.ids.imp fun hlt => ?_)
        exact decide_eq_true (Int.le_of_lt hlt)
      again := by
        intro a ha
        refine ⟨h.spans a ha, fun fields span hkey => ?_⟩
        simp [intern, h.find?_iff.mpr ⟨ha, hkey.symm⟩, pure, Except.pure] }

end Store

end AnonymousObjects
