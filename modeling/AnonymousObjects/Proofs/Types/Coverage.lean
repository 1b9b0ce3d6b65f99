import AnonymousObjects.Proofs.Types.SameTypes
import Mathlib.Data.Fin.Pigeonhole

/-!
# Stores with the same types

`s.CoveredBy t` says that every type of `s` is in `t` as well, under an id of its own. Types of a
regular store are told apart by their structures, so `t` then has at least as many types
(`CoveredBy.size_le`), at least as many anonymous types (`CoveredBy.registry_length_le`), and every
key of `s` written out (`CoveredBy.holdsKey`).
-/

namespace AnonymousObjects.Store

variable {base : TypeTable} {s t : Store} {fields : List (String × TypeStructure)}

/-- Every type of the first store is in the second. -/
def CoveredBy (s t : Store) : Prop :=
  ∀ id, s.table.Has id → ∃ id', s.SameType t id id'

/-- There is an anonymous type whose key is `fields` when it is written out. -/
def HoldsKey (s : Store) (fields : List (String × TypeStructure)) : Prop :=
  ∃ a ∈ s.registry.types, s.UnfoldsKey a.key fields

/-- Different ids of a regular store denote different types. -/
theorem SameType.injective (hs : s.Regular base) (ht : t.Sound base) {x y z : TypeId}
    (hx : s.SameType t x z) (hy : s.SameType t y z) : x = y := by
  obtain ⟨τ, hτ, hz⟩ := hx
  obtain ⟨σ, hσ, hz'⟩ := hy
  obtain rfl := hz.unique ht hz'
  exact hτ.injective hs hσ

/-- An anonymous type is covered by an anonymous type. -/
theorem CoveredBy.exists_type (h : s.CoveredBy t) (hs : s.Sound base) {a : AnonymousType}
    (ha : a ∈ s.registry.types) : ∃ b ∈ t.registry.types, s.SameType t a.id b.id := by
  obtain ⟨name, hd⟩ := hs.registered a ha
  obtain ⟨id', τ, hτ, hτ'⟩ := h a.id ⟨_, hd⟩
  obtain ⟨fields, rfl, _⟩ := hτ.of_anonymous hs ha
  cases hτ' with
  | anonymous _ b _ hb hid hkey => exact ⟨b, hb, _, hτ, .anonymous _ b fields hb rfl hkey⟩

/-- A store has no more types than one that covers it. -/
theorem CoveredBy.size_le (h : s.CoveredBy t) (hs : s.Regular base) (ht : t.Sound base) :
    s.table.size ≤ t.table.size := by
  have hindex : ∀ i : Fin s.table.defs.length, ∃ j : Fin t.table.defs.length,
      s.SameType t (.ofIndex i) (.ofIndex j) := by
    intro i
    have hhas : s.table.Has (.ofIndex i) :=
      ⟨_, TypeTable.get?_eq_some_iff.mpr ⟨i, rfl, List.getElem?_eq_getElem i.isLt⟩⟩
    obtain ⟨id', hsame⟩ := h _ hhas
    obtain ⟨d, hd⟩ := hsame.has_right ht
    obtain ⟨j, rfl, hj⟩ := TypeTable.get?_eq_some_iff.mp hd
    exact ⟨⟨j, (List.getElem?_eq_some_iff.mp hj).1⟩, hsame⟩
  choose f hf using hindex
  -- Two indices with one image have ids that denote the same type.
  refine Fin.le_of_injective f ?_
  intro i i' heq
  have hid := (hf i).injective hs ht (heq ▸ hf i')
  exact Fin.ext (TypeId.ofIndex_inj.mp hid)

/-- A store has no more anonymous types than one that covers it. -/
theorem CoveredBy.registry_length_le (h : s.CoveredBy t) (hs : s.Regular base) (ht : t.Sound base) :
    s.registry.types.length ≤ t.registry.types.length := by
  have hindex : ∀ i : Fin s.registry.types.length, ∃ j : Fin t.registry.types.length,
      s.SameType t s.registry.types[i].id t.registry.types[j].id := by
    intro i
    obtain ⟨b, hb, hsame⟩ := h.exists_type hs.toSound (List.getElem_mem i.isLt)
    obtain ⟨j, hj, rfl⟩ := List.mem_iff_getElem.mp hb
    exact ⟨⟨j, hj⟩, hsame⟩
  choose f hf using hindex
  refine Fin.le_of_injective f ?_
  intro i i' heq
  have hid := (hf i).injective hs ht (heq ▸ hf i')
  have htype := hs.toSound.eq_of_id (List.getElem_mem i.isLt) (List.getElem_mem i'.isLt) hid
  exact Fin.ext (hs.keys.of_map.getElem_inj_iff.mp htype)

/-- A store has every anonymous type of one that it covers. -/
theorem CoveredBy.holdsKey (h : s.CoveredBy t) (hs : s.Sound base) (ht : t.Sound base)
    (hfields : s.HoldsKey fields) : t.HoldsKey fields := by
  obtain ⟨a, ha, hkey⟩ := hfields
  obtain ⟨b, hb, τ, hτ, hτ'⟩ := h.exists_type hs ha
  obtain ⟨found, rfl, hfound⟩ := hτ.of_anonymous hs ha
  obtain ⟨found', heq, hfound'⟩ := hτ'.of_anonymous ht hb
  obtain rfl := hkey.unique hs hfound
  obtain rfl := TypeStructure.anonymous.inj heq
  exact ⟨b, hb, hfound'⟩

end AnonymousObjects.Store
