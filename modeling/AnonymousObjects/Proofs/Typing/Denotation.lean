import AnonymousObjects.Proofs.Types.Stores
import AnonymousObjects.Proofs.Typing.Rules
import Mathlib.Data.Option.Basic

/-!
# Types of a store

`Denotes base s id τ` says that in the store `s` the id `id` stands for the type `τ`, where `base`
holds the declared types. In a sound store an id stands for at most one type (`Denotes.unique`),
which stays the same when the store is extended (`Denotes.mono`). `Means base s b m` says the same
of bound nodes and their meanings.
-/

namespace AnonymousObjects

mutual

/-- `Denotes base s id τ` says that `id` stands for the type `τ`. -/
inductive Denotes (base : TypeTable) (s : Store) : TypeId → Ty → Prop where
  | declared (id) : base.Has id → Denotes base s id (.declared id)
  | nullable (id value name) :
      s.table.get? id = some ⟨.nullable value, name⟩ → Denotes base s id (.nullable value)
  | anonymous (id a fields) :
      a ∈ s.registry.types → a.id = id → DenotesKey base s a.key fields →
      Denotes base s id (.anonymous fields)

/-- `DenotesKey base s key fields` says that the types of a key stand for those of `fields`, which
have the same names. -/
inductive DenotesKey (base : TypeTable) (s : Store) :
    AnonymousKey → List (String × Ty) → Prop where
  | nil : DenotesKey base s [] []
  | cons (name id τ key fields) :
      Denotes base s id τ → DenotesKey base s key fields →
      DenotesKey base s ((name, id) :: key) ((name, τ) :: fields)

end

/-- `Means base s b m` says that the node `b` means `m`. -/
inductive Means (base : TypeTable) (s : Store) (b : BoundExpr) : Meaning → Prop where
  | value (id τ) : b.type? = some id → Denotes base s id τ → Means base s b (.value τ)
  | literal (source l) : b = .literal source none l → Means base s b .literal
  | methodGroup (source f) :
      b = .methodGroup source f → base.Has f.result → Means base s b (.methodGroup f)
  | nothing (source receiver access) :
      b = .conditionalAccess source receiver access none → Means base s b .nothing

/-- The definition that an id of a sound store has, given the type that it stands for. -/
inductive Shaped (base : TypeTable) (id : TypeId) (d : TypeDef) : Ty → Prop where
  | declared : base.get? id = some d → Shaped base id d (.declared id)
  | nullable (value) :
      d.shape = .nullable value → base.Has value → d.shape.isDeclared = false →
      Shaped base id d (.nullable value)
  | anonymous (parts fields) :
      d.shape = .anonymous parts → d.shape.isDeclared = false →
      Shaped base id d (.anonymous fields)

variable {base : TypeTable} {s s' : Store} {id : TypeId} {τ τ' : Ty} {key : AnonymousKey}
  {fields fields' : List (String × Ty)}

/-- The definition of a type has the shape that its meaning asks for. -/
theorem Denotes.shaped (hs : s.Sound base) (h : Denotes base s id τ) {d : TypeDef}
    (hd : s.table.get? id = some d) : Shaped base id d τ := by
  cases h with
  | declared _ hid =>
      obtain ⟨e, he⟩ := hid
      obtain rfl : d = e := Option.some.inj (hd.symm.trans (hs.grows.get? he))
      exact .declared he
  | nullable _ value name hget =>
      obtain rfl : d = _ := Option.some.inj (hd.symm.trans hget)
      obtain ⟨name', hvalue⟩ := hs.nullables id value name hget
      exact .nullable value rfl ⟨_, hvalue⟩ rfl
  | anonymous _ a fields ha hid =>
      obtain ⟨name, hget⟩ := hs.registered a ha
      rw [hid] at hget
      obtain rfl : d = _ := Option.some.inj (hd.symm.trans hget)
      exact .anonymous _ fields rfl rfl

/-- A type that means something is in the table. -/
theorem Denotes.has (hs : s.Sound base) (h : Denotes base s id τ) : s.table.Has id := by
  cases h with
  | declared _ hid => exact hs.grows.has hid
  | nullable _ value name hget => exact ⟨_, hget⟩
  | anonymous _ a fields ha hid =>
      obtain ⟨name, hget⟩ := hs.registered a ha
      exact ⟨_, hid ▸ hget⟩

/-- A type of the table of declared types stands for itself only. -/
theorem Denotes.eq_declared (hbase : base.Base) (hs : s.Sound base) (h : Denotes base s id τ)
    (hid : base.Has id) : τ = .declared id := by
  obtain ⟨d, hd⟩ := hid
  have hdeclared := hbase.declared _ _ hd
  cases h.shaped hs (hs.grows.get? hd) with
  | declared => rfl
  | nullable value _ _ hother => simp [hother] at hdeclared
  | anonymous parts fields _ hother => simp [hother] at hdeclared

/-- What stands for a declared type is that type. -/
theorem Denotes.declared_inv (h : Denotes base s id (.declared id')) : id = id' ∧ base.Has id := by
  cases h with
  | declared _ hid => exact ⟨rfl, hid⟩

mutual

/-- A type means the same in a store with more types. -/
theorem Denotes.mono {id : TypeId} {τ : Ty} (h : Denotes base s id τ) (hext : s.Extends s') :
    Denotes base s' id τ := by
  match h with
  | .declared _ hid => exact .declared _ hid
  | .nullable _ value name hget => exact .nullable _ value name (hext.table.get? hget)
  | .anonymous _ a fields ha hid hkey =>
      exact .anonymous _ a fields (hext.types.subset ha) hid (hkey.mono hext)

/-- A key means the same in a store with more types. -/
theorem DenotesKey.mono {key : AnonymousKey} {fields : List (String × Ty)}
    (h : DenotesKey base s key fields) (hext : s.Extends s') : DenotesKey base s' key fields := by
  match h with
  | .nil => exact .nil
  | .cons name id τ key fields hid hkey =>
      exact .cons name id τ key fields (hid.mono hext) (hkey.mono hext)

end

mutual

/-- An id stands for at most one type. -/
theorem Denotes.unique (hbase : base.Base) (hs : s.Sound base) {id : TypeId} {τ τ' : Ty}
    (h : Denotes base s id τ) (h' : Denotes base s id τ') : τ = τ' := by
  match h with
  | .declared _ hid => exact (h'.eq_declared hbase hs hid).symm
  | .nullable _ value name hget =>
      cases h'.shaped hs hget with
      | declared hdeclared =>
          exact absurd (hbase.declared _ _ hdeclared) (by simp [TypeShape.isDeclared])
      | nullable value' hvalue => rw [(TypeShape.nullable.inj hvalue)]
      | anonymous parts fields hparts => cases hparts
  | .anonymous _ a fields ha hid hkey =>
      cases h' with
      | declared _ hhas => exact absurd (hid ▸ hhas) (hs.not_declared hbase ha)
      | nullable _ value name hget =>
          obtain ⟨name', hget'⟩ := hs.registered a ha
          simp [hid, hget] at hget'
      | anonymous _ b fields' hb hid' hkey' =>
          obtain rfl := hs.eq_of_id ha hb (hid.trans hid'.symm)
          rw [hkey.unique hbase hs hkey']

/-- A key stands for at most one list of fields. -/
theorem DenotesKey.unique (hbase : base.Base) (hs : s.Sound base) {key : AnonymousKey}
    {fields fields' : List (String × Ty)} (h : DenotesKey base s key fields)
    (h' : DenotesKey base s key fields') : fields = fields' := by
  match h with
  | .nil =>
      cases h' with
      | nil => rfl
  | .cons name id τ key fields hid hkey =>
      cases h' with
      | cons _ _ τ' _ fields' hid' hkey' =>
          rw [hid.unique hbase hs hid', hkey.unique hbase hs hkey']

end

/-- A type that may be missing means one thing at most. -/
theorem Denotes.option_unique (hbase : base.Base) (hs : s.Sound base) {type : Option TypeId}
    {lifted lifted' : Option Ty} (h : Option.Rel (Denotes base s) type lifted)
    (h' : Option.Rel (Denotes base s) type lifted') : lifted = lifted' := by
  cases h with
  | none =>
      cases h'
      rfl
  | some hid =>
      cases h' with
      | some hid' => rw [hid.unique hbase hs hid']

/-- The names of a key are those of the fields that it stands for. -/
theorem DenotesKey.names {key : AnonymousKey} {fields : List (String × Ty)}
    (h : DenotesKey base s key fields) : key.map (·.1) = fields.map (·.1) := by
  match h with
  | .nil => rfl
  | .cons name _ _ _ _ _ hkey => simp [hkey.names]

/-! ## Meanings of nodes -/

variable {b : BoundExpr} {m m' : Meaning}

/-- A node means the same in a store with more types. -/
theorem Means.mono (h : Means base s b m) (hext : s.Extends s') : Means base s' b m := by
  cases h with
  | value id τ htype hid => exact .value id τ htype (hid.mono hext)
  | literal source l hb => exact .literal source l hb
  | methodGroup source f hb hhas => exact .methodGroup source f hb hhas
  | nothing source receiver access hb => exact .nothing source receiver access hb

/-- The type of a node stands for that of its meaning. -/
theorem Means.type (h : Means base s b m) : Option.Rel (Denotes base s) b.type? m.type? := by
  cases h with
  | value id τ htype hid =>
      rw [htype]
      exact .some hid
  | literal source l hb =>
      rw [hb]
      exact .none
  | methodGroup source f hb =>
      rw [hb]
      exact .none
  | nothing source receiver access hb =>
      rw [hb]
      exact .none

/-- A node with a type means a value of the type that it stands for. -/
theorem Means.of_type (h : Means base s b m) (hid : b.type? = some id) :
    ∃ τ, m = .value τ ∧ Denotes base s id τ := by
  have hrel := h.type
  rw [hid] at hrel
  cases h with
  | value id' τ htype hid' =>
      cases hrel with
      | some hdenotes => exact ⟨τ, rfl, hdenotes⟩
  | literal => cases hrel
  | methodGroup => cases hrel
  | nothing => cases hrel

/-- A node whose type stands for a type means a value of that type. -/
theorem Means.type_eq (hbase : base.Base) (hs : s.Sound base) (h : Means base s b m)
    (hid : b.type? = some id) (hτ : Denotes base s id τ) : m = .value τ := by
  obtain ⟨τ', rfl, hτ'⟩ := h.of_type hid
  rw [hτ.unique hbase hs hτ']

/-- The node of a function means that function. -/
theorem Means.methodGroup_inv {source : Syntax.Expr} {f : FunctionSymbol}
    (h : Means base s (.methodGroup source f) m) : m = .methodGroup f ∧ base.Has f.result := by
  cases h with
  | value id τ htype => simp [BoundExpr.type?] at htype
  | literal source l hb => cases hb
  | methodGroup source f hb hhas =>
      cases hb
      exact ⟨rfl, hhas⟩
  | nothing source receiver access hb => cases hb

/-- A node has at most one meaning. -/
theorem Means.unique (hbase : base.Base) (hs : s.Sound base) (h : Means base s b m)
    (h' : Means base s b m') : m = m' := by
  cases h with
  | value id τ htype hid => exact (h'.type_eq hbase hs htype hid).symm
  | literal source l hb => cases h' <;> simp_all [BoundExpr.type?]
  | methodGroup source f hb => cases h' <;> simp_all [BoundExpr.type?]
  | nothing source receiver access hb => cases h' <;> simp_all [BoundExpr.type?]

end AnonymousObjects
