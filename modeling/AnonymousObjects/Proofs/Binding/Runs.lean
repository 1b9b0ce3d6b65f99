import AnonymousObjects.Binding.Action
import AnonymousObjects.Proofs.Types.Stores

/-!
# Runs of actions

`x.Yields s a s' ds` says that the action `x`, run from the store `s`, gives `a`, leaves the store
`s'` and reports `ds`; the lemmas of the first section say when each action does. `x.Moves` says
that `x` works on the store through the operations of `Store.Step` only, also when it stops at a
fault.
-/

namespace AnonymousObjects.Action

variable {α β : Type} {x : Action α} {f : α → Action β} {s s' : Store} {a : α} {b : β}
  {ds : List Diagnostic}

/-! ## Results -/

/-- Run from `s`, the action gives `a`, leaves `s'` and reports `ds`. -/
def Yields (x : Action α) (s : Store) (a : α) (s' : Store) (ds : List Diagnostic) : Prop :=
  ∃ es, x s = ⟨.ok a, s', ds, es⟩

/-- An action yields the result that it has. -/
theorem yields_of_result (h : (x s).result = .ok a) :
    x.Yields s a (x s).store (x s).diagnostics := by
  refine ⟨(x s).events, ?_⟩
  rw [← h]

/-- The result, the store and the reports of an action that yields something. -/
theorem Yields.eq (h : x.Yields s a s' ds) :
    (x s).result = .ok a ∧ (x s).store = s' ∧ (x s).diagnostics = ds := by
  obtain ⟨es, h⟩ := h
  simp [h]

/-- An action yields one thing from one store. -/
theorem Yields.unique {a' : α} {t : Store} {ds' : List Diagnostic} (h : x.Yields s a s' ds)
    (h' : x.Yields s a' t ds') : a' = a ∧ t = s' ∧ ds' = ds := by
  obtain ⟨hresult, hstore, hdiagnostics⟩ := h.eq
  obtain ⟨hresult', hstore', hdiagnostics'⟩ := h'.eq
  refine ⟨?_, hstore'.symm.trans hstore, hdiagnostics'.symm.trans hdiagnostics⟩
  exact Except.ok.inj (hresult'.symm.trans hresult)

/-- A result alone changes nothing and reports nothing. -/
@[simp] theorem yields_pure {a' : α} :
    (pure a : Action α).Yields s a' s' ds ↔ a' = a ∧ s' = s ∧ ds = [] := by
  simp only [Yields, pure_apply, Outcome.mk.injEq, Except.ok.injEq]
  constructor
  · rintro ⟨_, rfl, rfl, rfl, _⟩
    exact ⟨rfl, rfl, rfl⟩
  · rintro ⟨rfl, rfl, rfl⟩
    exact ⟨[], rfl, rfl, rfl, rfl⟩

/-- What runs after an action starts from the store that it left, and its reports come after. -/
theorem yields_bind :
    (x >>= f).Yields s b s' ds ↔
      ∃ a t d₁ d₂, x.Yields s a t d₁ ∧ (f a).Yields t b s' d₂ ∧ ds = d₁ ++ d₂ := by
  constructor
  · rintro ⟨es, h⟩
    rw [bind_apply] at h
    rcases hx : x s with ⟨_ | a, t, d₁, e₁⟩
    · rw [andThen_of_error (by rw [hx])] at h
      simp at h
    · rw [andThen_of_ok (a := a) (by rw [hx])] at h
      rcases hf : f a t with ⟨r, u, d₂, e₂⟩
      simp only [hx, hf, Outcome.mk.injEq] at h
      obtain ⟨rfl, rfl, rfl, rfl⟩ := h
      exact ⟨a, t, d₁, d₂, ⟨_, hx⟩, ⟨_, hf⟩, rfl⟩
  · rintro ⟨a, t, d₁, d₂, ⟨e₁, hx⟩, ⟨e₂, hf⟩, rfl⟩
    refine ⟨e₁ ++ e₂, ?_⟩
    rw [bind_apply, andThen_of_ok (a := a) (by rw [hx])]
    simp [hx, hf]

/-- A function of a result changes and reports no more than the action. -/
@[simp] theorem yields_map {g : α → β} :
    (g <$> x).Yields s b s' ds ↔ ∃ a, x.Yields s a s' ds ∧ b = g a := by
  rw [map_eq_pure_bind, yields_bind]
  constructor
  · rintro ⟨a, _, d₁, _, hx, h, rfl⟩
    obtain ⟨rfl, rfl, rfl⟩ := yields_pure.mp h
    exact ⟨a, by simpa using hx, rfl⟩
  · rintro ⟨a, hx, rfl⟩
    exact ⟨a, _, ds, [], hx, by simp, by simp⟩

/-- An action that stops gives no result. -/
@[simp] theorem yields_stop {fault : BindFault} : ¬ (stop fault : Action α).Yields s a s' ds := by
  simp [Yields, stop]

/-- A report leaves the store as it is. -/
@[simp] theorem yields_report {p : Problem} {span : Span} {u : Unit} :
    (report p span).Yields s u s' ds ↔ s' = s ∧ ds = [.ofProblem "bind" p span] := by
  simp [Yields, report, eq_comm]

/-- An event leaves the store as it is and is no report. -/
@[simp] theorem yields_note {e : Event} {u : Unit} :
    (note e).Yields s u s' ds ↔ s' = s ∧ ds = [] := by
  simp [Yields, note, eq_comm]

/-- The table can be read. -/
@[simp] theorem yields_table {t : TypeTable} :
    table.Yields s t s' ds ↔ t = s.table ∧ s' = s ∧ ds = [] := by
  simp [Yields, table, eq_comm]

/-- A question to the table is answered, or else it gives no result. -/
@[simp] theorem yields_ask {f : TypeTable → Except UnknownType α} :
    (ask f).Yields s a s' ds ↔ f s.table = .ok a ∧ s' = s ∧ ds = [] := by
  unfold Yields ask
  cases f s.table <;> simp [eq_comm]

/-- A type that can always be made is made in the table. -/
@[simp] theorem yields_make {f : TypeTable → TypeId × TypeTable} {id : TypeId} :
    (make f).Yields s id s' ds ↔
      id = (f s.table).1 ∧ s' = { s with table := (f s.table).2 } ∧ ds = [] := by
  simp [Yields, make, eq_comm]

/-- A type that can be refused is made in the table, or else it gives no result. -/
@[simp] theorem yields_build {f : TypeTable → Except UnknownType (TypeId × TypeTable)}
    {id : TypeId} :
    (build f).Yields s id s' ds ↔
      ∃ t, f s.table = .ok (id, t) ∧ s' = { s with table := t } ∧ ds = [] := by
  unfold Yields build
  cases f s.table with
  | error e => simp
  | ok made =>
    obtain ⟨made, t⟩ := made
    simp only [Outcome.mk.injEq, Except.ok.injEq, Prod.mk.injEq]
    constructor
    · rintro ⟨_, rfl, rfl, rfl, _⟩
      exact ⟨t, ⟨rfl, rfl⟩, rfl, rfl⟩
    · rintro ⟨_, ⟨rfl, rfl⟩, rfl, rfl⟩
      exact ⟨[], rfl, rfl, rfl, rfl⟩

/-- The registry gives the type of a list of fields. -/
@[simp] theorem yields_intern {fields : List AnonymousField} {span : Span} {type : AnonymousType} :
    (intern fields span).Yields s type s' ds ↔ s.intern fields span = .ok (type, s') ∧ ds = [] := by
  unfold Yields intern
  cases hfind : s.registry.find? (AnonymousKey.ofFields fields) <;>
    rcases hmade : s.intern fields span with e | ⟨made, t⟩ <;>
      simp [eq_comm, and_assoc]

/-! ## What follows a primitive action -/

/-- What runs after the table was read runs with it. -/
@[simp] theorem yields_table_bind {f : TypeTable → Action β} :
    (table >>= f).Yields s b s' ds ↔ (f s.table).Yields s b s' ds := by
  simp only [yields_bind, yields_table]
  constructor
  · rintro ⟨_, _, _, _, ⟨rfl, rfl, rfl⟩, h, rfl⟩
    exact h
  · intro h
    exact ⟨_, _, [], ds, ⟨rfl, rfl, rfl⟩, h, rfl⟩

/-- What runs after a question runs with the answer. -/
@[simp] theorem yields_ask_bind {g : TypeTable → Except UnknownType α} :
    (ask g >>= f).Yields s b s' ds ↔ ∃ a, g s.table = .ok a ∧ (f a).Yields s b s' ds := by
  simp only [yields_bind, yields_ask]
  constructor
  · rintro ⟨a, _, _, _, ⟨ha, rfl, rfl⟩, h, rfl⟩
    exact ⟨a, ha, h⟩
  · rintro ⟨a, ha, h⟩
    exact ⟨a, _, [], ds, ⟨ha, rfl, rfl⟩, h, rfl⟩

/-- What runs after a report reports the rest. -/
@[simp] theorem yields_report_bind {p : Problem} {span : Span} {f : Unit → Action β} :
    (report p span >>= f).Yields s b s' ds ↔
      ∃ rest, (f ()).Yields s b s' rest ∧ ds = .ofProblem "bind" p span :: rest := by
  simp only [yields_bind, yields_report]
  constructor
  · rintro ⟨_, _, _, rest, ⟨rfl, rfl⟩, h, rfl⟩
    exact ⟨rest, h, rfl⟩
  · rintro ⟨rest, h, rfl⟩
    exact ⟨(), _, _, rest, ⟨rfl, rfl⟩, h, rfl⟩

/-- What runs after an event runs as if there had been none. -/
@[simp] theorem yields_note_bind {e : Event} {f : Unit → Action β} :
    (note e >>= f).Yields s b s' ds ↔ (f ()).Yields s b s' ds := by
  simp only [yields_bind, yields_note]
  constructor
  · rintro ⟨_, _, _, _, ⟨rfl, rfl⟩, h, rfl⟩
    exact h
  · intro h
    exact ⟨(), _, [], ds, ⟨rfl, rfl⟩, h, rfl⟩

/-- What runs after a type was made runs with it, in the table that holds it. -/
@[simp] theorem yields_make_bind {g : TypeTable → TypeId × TypeTable} {f : TypeId → Action β} :
    (make g >>= f).Yields s b s' ds ↔
      (f (g s.table).1).Yields { s with table := (g s.table).2 } b s' ds := by
  simp only [yields_bind, yields_make]
  constructor
  · rintro ⟨_, _, _, _, ⟨rfl, rfl, rfl⟩, h, rfl⟩
    exact h
  · intro h
    exact ⟨_, _, [], ds, ⟨rfl, rfl, rfl⟩, h, rfl⟩

/-! ## Stores -/

/-- From any store, the action leaves one that is reached from it. -/
def Moves (x : Action α) : Prop :=
  ∀ s : Store, s.Reaches (x s).store

/-- An action that moves along the steps of a store leaves one that is reached. -/
theorem Yields.reaches (h : x.Yields s a s' ds) (hx : x.Moves) : s.Reaches s' := by
  have := hx s
  rwa [h.eq.2.1] at this

/-- A result alone moves nowhere. -/
@[simp] theorem moves_pure : (pure a : Action α).Moves :=
  fun _ => .refl

/-- Actions that move along the steps of a store do so one after another. -/
theorem moves_bind (hx : x.Moves) (hf : ∀ a, (f a).Moves) : (x >>= f).Moves := by
  intro s
  rw [bind_apply]
  cases h : (x s).result with
  | error fault =>
    rw [andThen_of_error h]
    exact hx s
  | ok a =>
    rw [andThen_of_ok h]
    exact (hx s).trans (hf a (x s).store)

/-- An action that stops moves nowhere. -/
@[simp] theorem moves_stop {fault : BindFault} : (stop fault : Action α).Moves :=
  fun _ => .refl

/-- A report moves nowhere. -/
@[simp] theorem moves_report {p : Problem} {span : Span} : (report p span).Moves :=
  fun _ => .refl

/-- An event moves nowhere. -/
@[simp] theorem moves_note {e : Event} : (note e).Moves :=
  fun _ => .refl

/-- Reading the table moves nowhere. -/
@[simp] theorem moves_table : table.Moves :=
  fun _ => .refl

/-- A question moves nowhere. -/
@[simp] theorem moves_ask {f : TypeTable → Except UnknownType α} : (ask f).Moves := by
  intro s
  unfold ask
  cases f s.table <;> exact .refl

/-- Asking for a builtin type is a step of a store. -/
@[simp] theorem moves_ensure {b : Builtin} : (make (·.ensure b)).Moves :=
  fun s => .single (.ensure s b)

/-- Asking for an error type is a step of a store. -/
@[simp] theorem moves_ensureError {name : String} : (make (·.ensureError name)).Moves :=
  fun s => .single (.ensureError s name)

/-- Asking for a nullable type is a step of a store, or is refused. -/
@[simp] theorem moves_nullableOf {id : TypeId} : (build (·.nullableOf id)).Moves := by
  intro s
  rcases h : s.table.nullableOf id with e | ⟨made, t⟩ <;> simp only [build, h]
  · exact .refl
  · exact .single (.nullableOf s id made t h)

/-- Asking for an anonymous type is a step of a store, or is refused. -/
@[simp] theorem moves_intern {fields : List AnonymousField} {span : Span} :
    (intern fields span).Moves := by
  intro s
  unfold intern
  cases s.registry.find? (AnonymousKey.ofFields fields) <;>
    rcases h : s.intern fields span with e | ⟨made, t⟩
  · exact .refl
  · exact .single (.intern s fields span made t h)
  · exact .refl
  · exact .single (.intern s fields span made t h)

end AnonymousObjects.Action
