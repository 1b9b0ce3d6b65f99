import AnonymousObjects.Proofs.Binding.Fields
import AnonymousObjects.Proofs.Binding.Progress
import AnonymousObjects.Text.NameTable

/-!
# Mistakes are reported

Binding an expression from source text reports something exactly when there is a mistake in the node
that it makes. `Binds.reports_iff` is the induction over the rules, and
`bindExpr_reports_iff_hasAnyErrors` says it of a compilation, where reports are added to those made
before.
-/

namespace AnonymousObjects

open Syntax (Expr Initializer Name Program)

variable {ctx : Context} {s s' : Store} {b : BoundExpr} {ds : List Diagnostic}

/-! ## Forms of expressions -/

/-- A name is reported exactly where its node is mistaken. -/
theorem NameRule.reports_iff {t : TypeTable} {name : Name} (h : NameRule ctx t name b ds) :
    ds = [] ↔ b.hasAnyErrors = false := by
  cases h <;> simp [BoundExpr.hasAnyErrors]

/-- A static field is reported exactly where its node is mistaken. -/
theorem StaticFieldRule.reports_iff {t : TypeTable} {source : Expr} {owner : TypeId} {name : Name}
    (h : StaticFieldRule ctx t source owner name b ds) : ds = [] ↔ b.hasAnyErrors = false := by
  cases h <;> simp [BoundExpr.hasAnyErrors]

/-- The node of an instance field is mistaken exactly where it is reported or its receiver is
mistaken. -/
theorem InstanceFieldRule.reports_iff {t : TypeTable} {source : Expr} {receiver : BoundExpr}
    {name : Name} (h : InstanceFieldRule ctx t source receiver name b ds) :
    receiver.hasAnyErrors = false ∧ ds = [] ↔ b.hasAnyErrors = false := by
  cases h with
  | faulty hfaulty => simp [hfaulty, BoundExpr.hasAnyErrors]
  | found id field hclean => simp [hclean, BoundExpr.hasAnyErrors]
  | missing shown hclean => simp [BoundExpr.hasAnyErrors]

/-- A path that names no type is reported unless it rests on a mistake. -/
theorem PathRule.reports_iff {left : Expr} {inner : BoundExpr} (h : PathRule ctx left inner ds) :
    ds = [] ↔ inner.hasAnyErrors = true := by
  cases h with
  | faulty hfaulty => simp [hfaulty]
  | unknown hclean => simp [hclean]

/-- The node of a call is mistaken exactly where it is reported or one of its parts is mistaken. -/
theorem CallRule.reports_iff {source callee : Expr} {target : BoundExpr}
    {arguments : List BoundExpr} (h : CallRule ctx source callee target arguments b ds) :
    (target.hasAnyErrors = false ∧ BoundExpr.anyHasErrors arguments = false) ∧ ds = [] ↔
      b.hasAnyErrors = false := by
  cases h with
  | faulty hfaulty => simp [hfaulty, BoundExpr.hasAnyErrors]
  | call name f htarget => simp [htarget, BoundExpr.hasAnyErrors]
  | arity name f htarget => simp [BoundExpr.hasAnyErrors]
  | notInvocable hclean => simp [BoundExpr.hasAnyErrors]

/-- Literals are never mistaken. -/
theorem LiteralRule.clean {source : Expr} {l : Syntax.Literal} (h : LiteralRule s source l b s') :
    b.hasAnyErrors = false := by
  cases h <;> rfl

/-- A binary node is mistaken exactly where it is reported or one of its sides is mistaken. -/
theorem BinaryRule.reports_iff {source : Expr} {op : String} {left right : BoundExpr}
    (h : BinaryRule ctx source op s left right b s' ds) :
    (left.hasAnyErrors = false ∧ right.hasAnyErrors = false) ∧ ds = [] ↔
      b.hasAnyErrors = false := by
  cases h with
  | faulty hfaulty =>
      simp only [BoundExpr.hasAnyErrors, Bool.true_eq_false, iff_false]
      rintro ⟨⟨hleft, hright⟩, _⟩
      simp [hleft, hright] at hfaulty
  | sum id hleft hright => simp [hleft, hright, BoundExpr.hasAnyErrors]
  | mistake shownLeft shownRight => simp [BoundExpr.hasAnyErrors]

/-- A field is accessed without a mistake in a value without one. -/
theorem InstanceFieldRule.receiver_clean {t : TypeTable} {source : Expr} {receiver : BoundExpr}
    {name : Name} (h : InstanceFieldRule ctx t source receiver name b ds)
    (hclean : b.hasAnyErrors = false) : receiver.hasAnyErrors = false :=
  (h.reports_iff.mpr hclean).1

/-- A call without a mistake is one of a function. -/
theorem CallRule.call_of_clean {source callee : Expr} {target : BoundExpr}
    {arguments : List BoundExpr} (h : CallRule ctx source callee target arguments b ds)
    (hclean : b.hasAnyErrors = false) :
    ∃ name f, target = .methodGroup name f ∧ arguments.length = f.params.length ∧
      b = .call source f arguments := by
  cases h with
  | faulty => simp [BoundExpr.hasAnyErrors] at hclean
  | call name f htarget harity => exact ⟨name, f, htarget, harity, rfl⟩
  | arity => simp [BoundExpr.hasAnyErrors] at hclean
  | notInvocable => simp [BoundExpr.hasAnyErrors] at hclean

/-- A sum without a mistake is one of nodes without any. -/
theorem BinaryRule.parts_clean {source : Expr} {op : String} {left right : BoundExpr}
    (h : BinaryRule ctx source op s left right b s' ds) (hclean : b.hasAnyErrors = false) :
    left.hasAnyErrors = false ∧ right.hasAnyErrors = false :=
  (h.reports_iff.mpr hclean).1

/-! ## Expressions -/

/-- Nothing is wrong with the fields of a creation. -/
def FieldsClean (fields : List ResolvedField) : Prop :=
  ∀ f ∈ fields, f.value.hasAnyErrors = false ∧ f.faulty = false

/-- Several fields are clean where the first is and the others are. -/
theorem fieldsClean_cons {f : ResolvedField} {fs : List ResolvedField} :
    FieldsClean (f :: fs) ↔
      (f.value.hasAnyErrors = false ∧ f.faulty = false) ∧ FieldsClean fs := by
  simp [FieldsClean]

/-- A creation is without mistakes where its fields are clean and it stands where creations may. -/
theorem creationNode_hasAnyErrors (ctx : Context) (source : Expr) (new : Option Position)
    (resolved : List ResolvedField) (type : AnonymousType) :
    (creationNode ctx source new resolved type).hasAnyErrors = false ↔
      FieldsClean resolved ∧ allowsCreation ctx.member = true := by
  simp only [creationNode, BoundExpr.hasAnyErrors, BoundExpr.anyHasErrors_eq_any,
    Bool.or_eq_false_iff, List.any_eq_false, Bool.not_eq_true, Bool.not_eq_false', FieldsClean]
  constructor
  · rintro ⟨⟨hfaulty, hallowed⟩, hvalues⟩
    exact ⟨fun f hf => ⟨hvalues f.value (List.mem_map_of_mem hf), hfaulty f hf⟩, hallowed⟩
  · rintro ⟨hclean, hallowed⟩
    refine ⟨⟨fun f hf => (hclean f hf).2, hallowed⟩, fun v hv => ?_⟩
    obtain ⟨f, hf, rfl⟩ := List.mem_map.mp hv
    exact (hclean f hf).1

/-- A creation is reported as such exactly where creations may not stand. -/
theorem creationReports_eq_nil (ctx : Context) (new : Option Position) :
    ctx.creationReports new = [] ↔ allowsCreation ctx.member = true := by
  unfold Context.creationReports
  split <;> simp_all

mutual

/-- Nothing is reported exactly when there is no mistake in the node. -/
theorem Binds.reports_iff {r : Option Receiver} {e : Expr} {s s' : Store} {b : BoundExpr}
    {ds : List Diagnostic} (h : Binds ctx r e s b s' ds) (he : e.isProper = true) :
    ds = [] ↔ b.hasAnyErrors = false := by
  match h with
  | .name _ _ _ _ _ hrule => exact hrule.reports_iff
  | .staticAccess _ _ _ _ _ _ _ _ _ hrule => exact hrule.reports_iff
  | .instanceAccess _ _ _ _ _ _ _ _ _ _ _ hvalue hrule =>
      simp only [Expr.isProper, Bool.and_eq_true] at he
      rw [List.append_eq_nil_iff, hvalue.reports_iff he.1]
      exact hrule.reports_iff
  | .staticPath _ _ _ _ _ _ _ _ _ hrule => exact hrule.reports_iff
  | .unknownOwner .. => simp [BoundExpr.hasAnyErrors]
  | .longPath _ _ _ _ _ inner _ _ _ _ _ hinner hrule =>
      simp only [Expr.isProper, Bool.and_eq_true] at he
      -- The node is always a mistake: either its part has one that was reported, or this is.
      rw [List.append_eq_nil_iff, hinner.reports_iff he.1, hrule.reports_iff]
      cases inner.hasAnyErrors <;> simp [BoundExpr.hasAnyErrors]
  | .faultyTarget _ _ _ _ _ _ _ _ hbound hfaulty =>
      simp only [Expr.isProper, Bool.and_eq_true] at he
      rw [hbound.reports_iff he.1]
      simp [hfaulty, BoundExpr.hasAnyErrors]
  | .badReceiver .. => simp [BoundExpr.hasAnyErrors]
  | .conditionalAccess _ _ _ _ _ _ _ _ _ _ _ _ _ _ hbound _ _ haccess _ =>
      simp only [Expr.isProper, Bool.and_eq_true] at he
      rw [List.append_eq_nil_iff, hbound.reports_iff he.1, haccess.reports_iff he.2]
      simp [BoundExpr.hasAnyErrors]
  | .memberBinding _ _ _ _ _ _ hrule =>
      -- The node of a receiver is never a mistake.
      rw [← hrule.reports_iff]
      simp [Receiver.node, BoundExpr.hasAnyErrors]
  | .invocation _ _ _ _ _ _ _ _ _ _ _ _ _ htarget hbound hrule =>
      simp only [Expr.isProper, Bool.and_eq_true] at he
      rw [List.append_eq_nil_iff, List.append_eq_nil_iff, htarget.reports_iff he.1,
        hbound.reports_iff he.2]
      exact hrule.reports_iff
  | .literal _ _ _ _ _ _ hrule => simp [hrule.clean]
  | .binary _ _ _ _ _ _ _ _ _ _ _ _ _ _ _ hleft hright hrule =>
      simp only [Expr.isProper, Bool.and_eq_true] at he
      rw [List.append_eq_nil_iff, List.append_eq_nil_iff, hleft.reports_iff he.1,
        hright.reports_iff he.2]
      exact hrule.reports_iff
  | .parenthesized _ _ _ _ _ _ _ hinner => exact hinner.reports_iff he
  | .creation _ _ _ _ _ _ _ _ _ _ hresolved _ =>
      rw [List.append_eq_nil_iff, hresolved.reports_iff he, creationReports_eq_nil,
        creationNode_hasAnyErrors]
  | .error .. => simp [Expr.isProper] at he

/-- Nothing is reported exactly when there is no mistake in the nodes. -/
theorem BindsAll.reports_iff {r : Option Receiver} {es : List Expr} {s s' : Store}
    {bs : List BoundExpr} {ds : List Diagnostic} (h : BindsAll ctx r es s bs s' ds)
    (hes : Expr.allProper es = true) : ds = [] ↔ BoundExpr.anyHasErrors bs = false := by
  match h with
  | .nil .. => simp [BoundExpr.anyHasErrors]
  | .cons _ _ _ _ _ _ _ _ _ _ hb hbs =>
      simp only [Expr.allProper, Bool.and_eq_true] at hes
      rw [List.append_eq_nil_iff, hb.reports_iff hes.1, hbs.reports_iff hes.2]
      simp [BoundExpr.anyHasErrors]

/-- Nothing is reported exactly when nothing is wrong with the fields. -/
theorem BindsFields.reports_iff {r : Option Receiver} {index : Nat} {used : List String}
    {inits : List (Initializer Expr)} {s s' : Store} {fields : List ResolvedField}
    {ds : List Diagnostic} (h : BindsFields ctx r index used inits s fields s' ds)
    (hinits : Expr.initializersProper inits = true) : ds = [] ↔ FieldsClean fields := by
  match h with
  | .nil .. => simp [FieldsClean]
  | .cons _ _ _ init rest _ value _ _ field _ _ others _ _ hvalue hfield hothers =>
      simp only [Expr.initializersProper, Bool.and_eq_true] at hinits
      obtain ⟨⟨hlabel, hproper⟩, hrest⟩ := hinits
      have hfields := hfield.reports_iff hlabel hproper
      have hvalues := hvalue.reports_iff hproper
      have htail := hothers.reports_iff hrest
      simp only [List.append_eq_nil_iff, hvalues, htail, fieldsClean_cons, hfield.value_eq,
        ← hfields]
      constructor
      · rintro ⟨⟨⟨hdeclarator, hclean⟩, hnone⟩, hothers⟩
        exact ⟨⟨hclean, hdeclarator, hnone⟩, hothers⟩
      · rintro ⟨⟨hclean, hdeclarator, hnone⟩, hothers⟩
        exact ⟨⟨⟨hdeclarator, hclean⟩, hnone⟩, hothers⟩

end

/-! ## Compilations -/

/-- A computation that has reported diagnostics. -/
def Action.reported (ds : List Diagnostic) : Action Unit := fun s =>
  ⟨.ok (), s, ds, []⟩

/-- Reports are added to those made before. -/
theorem Action.yields_reported_bind {α : Type} {x : Action α} {a : α} {reports : List Diagnostic}
    (earlier : List Diagnostic) (h : x.Yields s a s' reports) :
    (reported earlier >>= fun _ => x).Yields s a s' (earlier ++ reports) :=
  yields_bind.mpr ⟨(), s, earlier, reports, ⟨[], rfl⟩, h, rfl⟩

/-- Binding an expression from source text adds reports to those made before, at least one exactly
when there is a mistake in the node that it makes. -/
theorem bindExpr_reports_iff_hasAnyErrors [Text.CharacterNames] (p : Program)
    (nullable : Option Bool)
    (file : Option String) (member : Option ContainingMember) (earlier : List Diagnostic)
    {source : List Char} {e : Expr} (he : Expr.parse source = .ok e) {s : Store}
    (hs : (Compilation.ofProgram p nullable file).Reachable s) :
    let ctx := (Compilation.ofProgram p nullable file).context member
    let outcome := (Action.reported earlier >>= fun _ => ctx.bindExpr none e) s
    ∃ b reports, outcome.result = .ok b ∧ outcome.diagnostics = earlier ++ reports ∧
      (reports ≠ [] ↔ b.hasAnyErrors = true) := by
  intro ctx outcome
  have hreadable := Expr.parse_readable he
  obtain ⟨b, s', reports, hbinds⟩ := hs.binds member hreadable.closed
  obtain ⟨hresult, _, hdiagnostics⟩ :=
    (Action.yields_reported_bind earlier (Context.yields_of_binds hbinds)).eq
  refine ⟨b, reports, hresult, hdiagnostics, ?_⟩
  rw [Ne, hbinds.reports_iff hreadable.proper, Bool.not_eq_false]

/-- In `new { a = b }` without declarations, `b` and the place of the creation are mistakes. -/
theorem reports_of_undefined_name :
    let c := Compilation.ofProgram {} none none
    let e : Expr := .creation (some ⟨1, 1⟩) (some ⟨1, 1⟩)
      [⟨some ⟨1, 7⟩, some ⟨"a", some ⟨1, 7⟩⟩, .identifier ⟨"b", some ⟨1, 11⟩⟩⟩]
    let outcome := (Action.reported [] >>= fun _ => (c.context none).bindExpr none e) c.store
    Expr.parse "new \x7b a = b \x7d".toList = .ok e ∧ c.Reachable c.store ∧
      ∃ b reports, outcome.result = .ok b ∧ outcome.diagnostics = [] ++ reports ∧
        (reports ≠ [] ↔ b.hasAnyErrors = true) := by
  intro c e outcome
  have hparse : Expr.parse "new \x7b a = b \x7d".toList = .ok e := rfl
  exact ⟨hparse, .refl, bindExpr_reports_iff_hasAnyErrors {} none none none [] hparse .refl⟩

end AnonymousObjects
