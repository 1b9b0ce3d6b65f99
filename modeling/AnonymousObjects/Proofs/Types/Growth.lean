import AnonymousObjects.Types.Table

/-!
# How type tables grow

A type table only ever gets more types. `get?_mono` says that a type keeps its definition in a
longer table. Binding adds types that no name in source text refers to, and `Grows.lookup` says that
such additions leave every name with the type it had.
-/

namespace AnonymousObjects

/-- An id has an index exactly when it is the id of that index. -/
theorem TypeId.index?_eq_some_iff {id : TypeId} {i : Nat} :
    id.index? = some i ↔ id = ofIndex i := by
  constructor
  · intro h
    rcases id with ⟨n⟩
    match n, h with
    | .ofNat (n + 1), h =>
      obtain rfl : n = i := by simpa [TypeId.index?] using h
      rfl
    | .ofNat 0, h => exact absurd h (by simp [TypeId.index?])
    | .negSucc n, h => exact absurd h (by simp [TypeId.index?])
  · rintro rfl
    exact index?_ofIndex i

/-- Ids of different indices are different. -/
@[simp] theorem TypeId.ofIndex_inj {i j : Nat} : ofIndex i = ofIndex j ↔ i = j := by
  constructor
  · intro h
    have hindex := congrArg TypeId.index? h
    simpa using hindex
  · rintro rfl
    rfl

namespace TypeTable

variable {t u v : TypeTable} {d : TypeDef} {id : TypeId} {p : TypeDef → Bool}

/-! ## Definitions and ids -/

/-- The type with the id of an index is the one at that index. -/
@[simp] theorem get?_ofIndex (t : TypeTable) (i : Nat) : t.get? (.ofIndex i) = t.defs[i]? := rfl

/-- A type with a definition stands at an index of the list. -/
theorem get?_eq_some_iff : t.get? id = some d ↔ ∃ i, id = .ofIndex i ∧ t.defs[i]? = some d := by
  simp only [get?, Option.bind_eq_some_iff, TypeId.index?_eq_some_iff]

/-- There is a type with this id. -/
def Has (t : TypeTable) (id : TypeId) : Prop :=
  ∃ d, t.get? id = some d

/-- A definition is given where there is one. -/
@[simp] theorem get_eq_ok_iff : t.get id = .ok d ↔ t.get? id = some d := by
  unfold get
  cases t.get? id <;> simp

/-- The name that is shown for a type is that of its definition. -/
@[simp] theorem display_eq_ok_iff {name : String} :
    t.display id = .ok name ↔ ∃ d, t.get? id = some d ∧ d.name = name := by
  unfold display get
  cases t.get? id <;> simp [Functor.map, Except.map]

/-- The kind of a type is that of its definition. -/
@[simp] theorem shape_eq_ok_iff {shape : TypeShape} :
    t.shape id = .ok shape ↔ ∃ d, t.get? id = some d ∧ d.shape = shape := by
  unfold TypeTable.shape get
  cases t.get? id <;> simp [Functor.map, Except.map]

/-! ## Looking for types -/

/-- The type found has the property looked for. -/
theorem find?_spec (h : t.find? p = some id) : ∃ d, t.get? id = some d ∧ p d = true := by
  simp only [find?, Option.map_eq_some_iff] at h
  obtain ⟨i, hi, rfl⟩ := h
  obtain ⟨hlt, hp, _⟩ := List.findIdx?_eq_some_iff_getElem.mp hi
  exact ⟨t.defs[i], by simp [List.getElem?_eq_getElem hlt], hp⟩

/-- The type of a name is a named type and has that name. -/
theorem lookup_spec {name : String} (h : t.lookup name = some id) :
    ∃ d, t.get? id = some d ∧ d.shape.isNamed = true ∧ d.name = name := by
  obtain ⟨d, hd, hp⟩ := find?_spec h
  exact ⟨d, hd, by simpa using hp⟩

/-- A type is found among those there are, or else a new one is added. -/
theorem findOrAdd_cases (t : TypeTable) (p : TypeDef → Bool) (d : TypeDef) :
    (∃ id e, t.get? id = some e ∧ p e = true ∧ t.findOrAdd p d = (id, t)) ∨
      (t.find? p = none ∧ t.findOrAdd p d = t.add d) := by
  unfold findOrAdd
  cases h : t.find? p with
  | none => exact .inr ⟨rfl, rfl⟩
  | some id =>
    obtain ⟨e, he, hp⟩ := find?_spec h
    exact .inl ⟨id, e, he, hp, rfl⟩

/-! ## Longer tables -/

/-- A type keeps its definition in a longer table. -/
theorem get?_mono (h : t.defs <+: u.defs) (hd : t.get? id = some d) : u.get? id = some d := by
  obtain ⟨i, rfl, hi⟩ := get?_eq_some_iff.mp hd
  obtain ⟨more, hmore⟩ := h
  have hlt : i < t.defs.length := (List.getElem?_eq_some_iff.mp hi).1
  rw [get?_ofIndex, ← hmore, List.getElem?_append_left hlt, hi]

/-- A type stays in a longer table. -/
theorem Has.mono (hid : t.Has id) (h : t.defs <+: u.defs) : u.Has id := by
  obtain ⟨d, hd⟩ := hid
  exact ⟨d, get?_mono h hd⟩

/-- A new type comes after the others. -/
theorem defs_add (t : TypeTable) (d : TypeDef) : t.defs <+: (t.add d).2.defs :=
  ⟨[d], rfl⟩

/-- A table after a type has been added holds that type and those it held before. -/
theorem get?_add_cases {e : TypeDef} (h : (t.add d).2.get? id = some e) :
    t.get? id = some e ∨ (id = (t.add d).1 ∧ e = d) := by
  obtain ⟨i, rfl, hi⟩ := get?_eq_some_iff.mp h
  by_cases hlt : i < t.defs.length
  · refine .inl ?_
    simpa [add, List.getElem?_append_left hlt] using hi
  · refine .inr ?_
    have hle : t.defs.length ≤ i := Nat.le_of_not_lt hlt
    simp only [add, List.getElem?_append_right hle] at hi
    obtain ⟨hzero, he⟩ := List.getElem?_eq_some_iff.mp hi
    simp only [List.length_singleton, Nat.lt_one_iff] at hzero
    refine ⟨?_, by simpa [hzero] using he.symm⟩
    simp only [add, size, TypeId.ofIndex_inj]
    omega

/-- The id of a new type was no id before. -/
theorem not_has_add (t : TypeTable) (d : TypeDef) : ¬ t.Has (t.add d).1 := by
  rintro ⟨e, he⟩
  simp [add, size] at he

/-- The larger table has more types, none of them with a name in source text, and the same
fields. -/
structure Grows (t u : TypeTable) : Prop where
  defs : ∃ more, u.defs = t.defs ++ more ∧ ∀ d ∈ more, d.shape.isNamed = false
  schemas : u.schemas = t.schemas

/-- A table grows by nothing. -/
theorem Grows.refl (t : TypeTable) : t.Grows t :=
  ⟨⟨[], by simp⟩, rfl⟩

/-- What has grown twice has grown. -/
theorem Grows.trans (htu : t.Grows u) (huv : u.Grows v) : t.Grows v := by
  obtain ⟨⟨first, hfirst, hplain⟩, hschemas⟩ := htu
  obtain ⟨⟨second, hsecond, hplain'⟩, hschemas'⟩ := huv
  refine ⟨⟨first ++ second, by simp [hsecond, hfirst], ?_⟩, hschemas'.trans hschemas⟩
  intro d hd
  rcases List.mem_append.mp hd with hd | hd
  · exact hplain d hd
  · exact hplain' d hd

/-- A type without a name in source text may be added. -/
theorem Grows.add (t : TypeTable) {d : TypeDef} (h : d.shape.isNamed = false) :
    t.Grows (t.add d).2 :=
  ⟨⟨[d], rfl, by simpa using h⟩, rfl⟩

/-- What a table held stays in front. -/
theorem Grows.initial (h : t.Grows u) : t.defs <+: u.defs := by
  obtain ⟨⟨more, hmore, _⟩, _⟩ := h
  exact ⟨more, hmore.symm⟩

/-- A type keeps its definition. -/
theorem Grows.get? (h : t.Grows u) (hd : t.get? id = some d) : u.get? id = some d :=
  get?_mono h.initial hd

/-- A type is there in the larger table. -/
theorem Grows.has (h : t.Grows u) (hid : t.Has id) : u.Has id :=
  hid.mono h.initial

/-- A named type of the larger table is one of the smaller table. -/
theorem Grows.get?_of_named (h : t.Grows u) (hd : u.get? id = some d)
    (hnamed : d.shape.isNamed = true) : t.get? id = some d := by
  obtain ⟨⟨more, hmore, hplain⟩, _⟩ := h
  obtain ⟨i, rfl, hi⟩ := get?_eq_some_iff.mp hd
  rw [hmore, List.getElem?_append] at hi
  split at hi
  · exact hi
  · have := hplain d (List.mem_of_getElem? hi)
    simp [this] at hnamed

/-- Names keep their types. -/
theorem Grows.lookup (h : t.Grows u) (name : String) : u.lookup name = t.lookup name := by
  obtain ⟨⟨more, hmore, hplain⟩, _⟩ := h
  have hnone : more.findIdx? (fun d => d.shape.isNamed && d.name == name) = none := by
    rw [List.findIdx?_eq_none_iff]
    intro d hd
    simp [hplain d hd]
  simp [TypeTable.lookup, find?, hmore, List.findIdx?_append, hnone]

/-- Types keep their fields. -/
theorem Grows.findField (h : t.Grows u) (id : TypeId) (name : String) (isStatic : Bool) :
    u.findField id name isStatic = t.findField id name isStatic := by
  simp only [TypeTable.findField, TypeTable.fieldsOf, h.schemas]

end TypeTable

end AnonymousObjects
