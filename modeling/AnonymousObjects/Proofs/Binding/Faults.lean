import AnonymousObjects.Proofs.Binding.Progress
import AnonymousObjects.Proofs.Syntax.Parts

/-!
# Where binding stops

In a sound store an expression is bound to a node or it has a member binding without a target, as
`binds_total` shows. Here is the other half: a member binding without a target stops binding,
wherever it stands. What is left out by a form, the owner of a static field, is a single name.
-/

namespace AnonymousObjects

open Syntax (Expr Initializer)

namespace Action

variable {α β : Type} {x : Action α} {f : α → Action β} {s t : Store} {a : α} {fault : BindFault}
  {ds : List Diagnostic}

/-- Run from `s`, the action stops at the fault. -/
def Stops (x : Action α) (s : Store) (fault : BindFault) : Prop :=
  (x s).result = .error fault

/-- After a fault nothing is run. -/
theorem Stops.bind (h : x.Stops s fault) : (x >>= f).Stops s fault := by
  rw [Stops, bind_apply, andThen_of_error h]

/-- A computation stops where the second part of it stops. -/
theorem Yields.stops_bind (h : x.Yields s a t ds) (hf : (f a).Stops t fault) :
    (x >>= f).Stops s fault := by
  obtain ⟨hresult, rfl, -⟩ := h.eq
  rw [Stops, bind_apply, andThen_of_ok hresult]
  exact hf

/-- Nothing both yields a result and stops. -/
theorem Yields.not_stops (h : x.Yields s a t ds) : ¬ x.Stops s fault := by
  rw [Stops, h.eq.1]
  simp

end Action

namespace Context

open AnonymousObjects.Action (yields_report yields_table)

variable {ctx : Context} {base : TypeTable}

/-- What names a type is a name, so it has no member binding. -/
theorem hasStray_of_typeNamed {t : TypeTable} {e : Expr} {owner : TypeId}
    (h : ctx.typeNamed t e = some owner) : e.hasStray = false := by
  unfold typeNamed at h
  split at h
  · rfl
  · cases h

/-- A name alone contains no stray member binding. -/
theorem hasStray_of_simpleName? {e : Expr} {name : Syntax.Name} (h : simpleName? e = some name) :
    e.hasStray = false := by
  unfold simpleName? at h
  split at h
  · rfl
  · cases h

/-- Without a receiver, an expression whose member bindings have targets is bound. -/
theorem binds_of_not_hasStray (hfits : ctx.Fits base) {e : Expr} {s : Store} (hs : s.Sound base)
    (h : e.hasStray = false) : ∃ b s' ds, Binds ctx none e s b s' ds :=
  binds_total hfits none e hs (by simp [Receiver.Valid]) fun _ => h

/-- What begins with the binding of an expression stops if that does, or else if what follows stops
in whatever sound store the node is left in. -/
theorem bindExpr_bind_stops {α : Type} (hfits : ctx.Fits base) {e : Expr} {s : Store}
    (hs : s.Sound base) {f : BoundExpr → Action α} {fault : BindFault}
    (he : e.hasStray = true → (ctx.bindExpr none e).Stops s fault)
    (hf : e.hasStray = false → ∀ b t, t.Sound base → b.Valid t.table → (f b).Stops t fault) :
    (ctx.bindExpr none e >>= f).Stops s fault := by
  cases hstray : e.hasStray with
  | true => exact (he hstray).bind
  | false =>
      obtain ⟨b, t, ds, hb⟩ := binds_of_not_hasStray hfits hs hstray
      exact (yields_of_binds hb).stops_bind
        (hf hstray b t (hb.sound hfits hs).1 (hb.valid hfits hs))

mutual

/-- A member binding without a target stops the binding of the expression that it is in. -/
theorem bindExpr_stops (hfits : ctx.Fits base) (e : Expr) {s : Store} (hs : s.Sound base)
    (h : e.hasStray = true) : (ctx.bindExpr none e).Stops s .strayMemberBinding := by
  cases e with
  | identifier | literal | error => simp [Expr.hasStray] at h
  | memberAccess p target name =>
      refine (yields_table.mpr ⟨rfl, rfl, rfl⟩).stops_bind ?_
      split
      · next howner => simp [Expr.hasStray, hasStray_of_typeNamed howner] at h
      · exact (bindExpr_stops hfits target hs h).bind
  | qualifiedName p left right =>
      refine (yields_table.mpr ⟨rfl, rfl, rfl⟩).stops_bind ?_
      split
      · next howner => simp [Expr.hasStray, hasStray_of_typeNamed howner] at h
      · next hname => simp [Expr.hasStray, hasStray_of_simpleName? hname] at h
      · exact (bindExpr_stops hfits left hs h).bind
  | conditionalAccess p target access =>
      -- Member bindings of the second part have a target, so the one at hand is in the first.
      exact (bindExpr_stops hfits target hs h).bind
  | memberBinding p name => rfl
  | invocation p callee arguments =>
      have hfirst := bindExpr_stops hfits callee hs
      refine bindExpr_bind_stops hfits hs hfirst fun hcallee b t ht _ => ?_
      have harguments : Expr.anyHasStray arguments = true := by
        simpa [Expr.hasStray, hcallee] using h
      exact (bindExprs_stops hfits arguments ht harguments).bind
  | binary p op left right =>
      refine bindExpr_bind_stops hfits hs (bindExpr_stops hfits left hs) fun hleft b t ht _ => ?_
      have hright : right.hasStray = true := by simpa [Expr.hasStray, hleft] using h
      exact (bindExpr_stops hfits right ht hright).bind
  | parenthesized p inner => exact bindExpr_stops hfits inner hs h
  | creation p new initializers =>
      exact (bindInitializers_stops hfits 0 [] initializers hs h).bind

/-- A member binding without a target stops the binding of the expressions that it is among. -/
theorem bindExprs_stops (hfits : ctx.Fits base) (es : List Expr) {s : Store} (hs : s.Sound base)
    (h : Expr.anyHasStray es = true) : (ctx.bindExprs none es).Stops s .strayMemberBinding := by
  cases es with
  | nil => cases h
  | cons e es =>
      refine bindExpr_bind_stops hfits hs (bindExpr_stops hfits e hs) fun he b t ht _ => ?_
      have hes : Expr.anyHasStray es = true := by simpa [Expr.anyHasStray, he] using h
      exact (bindExprs_stops hfits es ht hes).bind

/-- A member binding without a target stops the binding of the initializers that it is among. -/
theorem bindInitializers_stops (hfits : ctx.Fits base) (index : Nat) (used : List String)
    (inits : List (Initializer Expr)) {s : Store} (hs : s.Sound base)
    (h : Expr.initializerHasStray inits = true) :
    (ctx.bindInitializers none index used inits).Stops s .strayMemberBinding := by
  cases inits with
  | nil => cases h
  | cons init rest =>
      obtain ⟨place, label, e⟩ := init
      -- What follows the report about a declarator without a name, which is not always made.
      have htail : (do
          let value ← ctx.bindExpr none e
          let field ← ResolvedField.resolve ctx index used ⟨place, label, e⟩
            (ResolvedField.shapeOf ⟨place, label, e⟩).1
            (ResolvedField.shapeOf ⟨place, label, e⟩).2 value
          let others ← ctx.bindInitializers none (index + 1) (used ++ field.name.toList) rest
          pure (field :: others)).Stops s .strayMemberBinding := by
        refine bindExpr_bind_stops hfits hs (bindExpr_stops hfits e hs) fun he b t ht hb => ?_
        have hrest : Expr.initializerHasStray rest = true := by
          simpa [Expr.initializerHasStray, he] using h
        obtain ⟨field, u, ds, hfield⟩ := fieldRule_total ctx hb index used ⟨place, label, e⟩
        refine (resolve_yields_iff.mpr hfield).stops_bind ?_
        exact (bindInitializers_stops hfits (index + 1) _ rest (hfield.sound hfits ht).1 hrest).bind
      rw [bindInitializers]
      simp only
      split
      · exact (yields_report (u := ()).mpr ⟨rfl, rfl⟩).stops_bind htail
      · exact htail

end

/-- Binding without a receiver stops exactly where a member binding has no target, and at no other
fault. -/
theorem bindExpr_stops_iff (hfits : ctx.Fits base) {e : Expr} {s : Store} (hs : s.Sound base)
    {fault : BindFault} :
    (ctx.bindExpr none e).Stops s fault ↔ fault = .strayMemberBinding ∧ e.hasStray = true := by
  constructor
  · intro h
    cases he : e.hasStray with
    | true =>
        have hstray := bindExpr_stops hfits e hs he
        exact ⟨Except.error.inj (h.symm.trans hstray), rfl⟩
    | false =>
        obtain ⟨b, s', ds, hb⟩ := binds_of_not_hasStray hfits hs he
        exact absurd h (yields_of_binds hb).not_stops
  · rintro ⟨rfl, he⟩
    exact bindExpr_stops hfits e hs he

end Context

end AnonymousObjects
