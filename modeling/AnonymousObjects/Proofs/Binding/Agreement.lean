import AnonymousObjects.Proofs.Binding.Rules
import AnonymousObjects.Proofs.Binding.Runs

/-!
# Binding follows the rules

The rules of `Proofs.Binding.Rules` say what `Context.bindExpr` does. `bindExpr_yields_iff` shows
that the two agree, after a lemma for what each form makes of the nodes of its parts.
-/

namespace AnonymousObjects.Context

open AnonymousObjects.Action
open Syntax (Expr Initializer Literal LiteralKind Name)

variable {ctx : Context} {r : Option Receiver} {s s' : Store} {b : BoundExpr}
  {ds : List Diagnostic} {source : Expr} {name : Name}

/-! ## Forms of expressions -/

/-- Describing a node for a message reads its text and reports nothing. -/
theorem describe_yields_iff {text : Text} :
    (describe b).Yields s text s' ds ↔ Describes s.table b text ∧ s' = s ∧ ds = [] := by
  unfold describe
  cases htype : b.type? with
  | none =>
    simp only [yields_pure]
    constructor
    · rintro ⟨rfl, rfl, rfl⟩
      exact ⟨.untyped htype, rfl, rfl⟩
    · rintro ⟨h, rfl, rfl⟩
      cases h with
      | typed id d hid => simp [htype] at hid
      | untyped => exact ⟨rfl, rfl, rfl⟩
  | some id =>
    simp only [yields_ask_bind, yields_pure, TypeTable.display_eq_ok_iff]
    constructor
    · rintro ⟨_, ⟨d, hd, rfl⟩, rfl, rfl, rfl⟩
      exact ⟨.typed id d htype hd, rfl, rfl⟩
    · rintro ⟨h, rfl, rfl⟩
      cases h with
      | typed id' d hid hd =>
        obtain rfl : id = id' := by simpa [htype] using hid
        exact ⟨d.name, ⟨d, hd, rfl⟩, rfl, rfl, rfl⟩
      | untyped hid => simp [htype] at hid

/-- Rejecting an expression makes a bad node and reports the problem. -/
@[simp] theorem reject_yields_iff {parts : List BoundExpr} {p : Problem} {span : Span} :
    (reject source parts p span).Yields s b s' ds ↔
      b = .bad source parts ∧ s' = s ∧ ds = [.ofProblem "bind" p span] := by
  simp only [reject, yields_report_bind, yields_pure]
  constructor
  · rintro ⟨_, ⟨rfl, rfl, rfl⟩, rfl⟩
    exact ⟨rfl, rfl, rfl⟩
  · rintro ⟨rfl, rfl, rfl⟩
    exact ⟨[], ⟨rfl, rfl, rfl⟩, rfl⟩

/-- A name is bound as the rule for names says, and the store is left alone. -/
theorem bindName_yields_iff :
    (ctx.bindName name).Yields s b s' ds ↔ NameRule ctx s.table name b ds ∧ s' = s := by
  unfold bindName
  constructor
  · intro h
    split at h
    · next g hg =>
      obtain ⟨rfl, rfl, rfl⟩ := yields_pure.mp h
      exact ⟨.global g hg, rfl⟩
    · next f hg hf =>
      obtain ⟨rfl, rfl, rfl⟩ := yields_pure.mp h
      exact ⟨.function f hg hf, rfl⟩
    · next hg hf =>
      rw [yields_table_bind] at h
      split at h
      · next id hid =>
        obtain ⟨rfl, rfl, rfl⟩ := reject_yields_iff.mp h
        exact ⟨.typeName id hg hf hid, rfl⟩
      · next hid =>
        obtain ⟨rfl, rfl, rfl⟩ := reject_yields_iff.mp h
        exact ⟨.undefined hg hf hid, rfl⟩
  · rintro ⟨h, rfl⟩
    cases h with
    | global g hg => simp [hg]
    | function f hg hf => simp [hg, hf]
    | typeName id hg hf hid => simp [hg, hf, hid, mistake]
    | undefined hg hf hid => simp [hg, hf, hid, mistake]

/-- A static field is bound as its rule says, and the store is left alone. -/
theorem bindStaticField_yields_iff {owner : TypeId} :
    (ctx.bindStaticField source owner name).Yields s b s' ds ↔
      StaticFieldRule ctx s.table source owner name b ds ∧ s' = s := by
  rw [bindStaticField, yields_table_bind]
  constructor
  · intro h
    split at h
    · next field hfield =>
      obtain ⟨rfl, rfl, rfl⟩ := yields_pure.mp h
      exact ⟨.found field hfield, rfl⟩
    · next hfield =>
      simp only [yields_ask_bind, TypeTable.display_eq_ok_iff] at h
      obtain ⟨_, ⟨d, hd, rfl⟩, h⟩ := h
      obtain ⟨rfl, rfl, rfl⟩ := reject_yields_iff.mp h
      exact ⟨.missing d hfield hd, rfl⟩
  · rintro ⟨h, rfl⟩
    cases h with
    | found field hfield => simp [hfield]
    | missing d hfield hd => simp [hfield, hd, mistake]

/-- An instance field is bound as its rule says, and the store is left alone. -/
theorem bindInstanceField_yields_iff {receiver : BoundExpr} :
    (ctx.bindInstanceField source receiver name).Yields s b s' ds ↔
      InstanceFieldRule ctx s.table source receiver name b ds ∧ s' = s := by
  unfold bindInstanceField
  constructor
  · intro h
    split at h
    · next hfaulty =>
      obtain ⟨rfl, rfl, rfl⟩ := yields_pure.mp h
      exact ⟨.faulty hfaulty, rfl⟩
    · next hclean =>
      simp only [Bool.not_eq_true] at hclean
      rw [yields_table_bind] at h
      split at h
      · next field hfield =>
        obtain ⟨rfl, rfl, rfl⟩ := yields_pure.mp h
        obtain ⟨id, hid, hfield⟩ := Option.bind_eq_some_iff.mp hfield
        exact ⟨.found id field hclean hid hfield, rfl⟩
      · next hfield =>
        simp only [yields_bind, describe_yields_iff] at h
        obtain ⟨shown, _, _, _, ⟨hshown, rfl, rfl⟩, h, rfl⟩ := h
        obtain ⟨rfl, rfl, rfl⟩ := reject_yields_iff.mp h
        exact ⟨.missing shown hclean hfield hshown, rfl⟩
  · rintro ⟨h, rfl⟩
    cases h with
    | faulty hfaulty => simp [hfaulty]
    | found id field hclean hid hfield => simp [hclean, hid, hfield]
    | missing shown hclean hfield hshown =>
      simp only [hclean, Bool.false_eq_true, if_false, yields_table_bind, hfield]
      simp only [yields_bind, describe_yields_iff]
      exact ⟨shown, _, [], _, ⟨hshown, rfl, rfl⟩, reject_yields_iff.mpr ⟨rfl, rfl, rfl⟩, rfl⟩

/-- A path that names no value becomes a bad node with the report that the rule for paths gives. -/
theorem rejectPath_yields_iff {left : Expr} {inner : BoundExpr} :
    (ctx.rejectPath source left inner).Yields s b s' ds ↔
      PathRule ctx left inner ds ∧ b = .bad source [inner] ∧ s' = s := by
  unfold rejectPath
  constructor
  · intro h
    split at h
    · next hfaulty =>
      obtain ⟨rfl, rfl, rfl⟩ := yields_pure.mp h
      exact ⟨.faulty hfaulty, rfl, rfl⟩
    · next hclean =>
      obtain ⟨rfl, rfl, rfl⟩ := reject_yields_iff.mp h
      exact ⟨.unknown (by simpa using hclean), rfl, rfl⟩
  · rintro ⟨h, rfl, rfl⟩
    cases h with
    | faulty hfaulty => simp [hfaulty]
    | unknown hclean => simp [hclean, mistake]

/-- The type that member bindings refer to is the one that the rule for receivers gives. -/
theorem receiverType?_yields_iff {type : Option TypeId} :
    (receiverType? b).Yields s type s' ds ↔ ReceiverRule s.table b type ∧ s' = s ∧ ds = [] := by
  unfold receiverType?
  cases htype : b.type? with
  | none =>
    simp only [yields_pure]
    constructor
    · rintro ⟨rfl, rfl, rfl⟩
      exact ⟨.untyped htype, rfl, rfl⟩
    · rintro ⟨h, rfl, rfl⟩
      cases h with
      | untyped => exact ⟨rfl, rfl, rfl⟩
      | nullable id _ _ hid | reference id _ hid | other id _ hid => simp [htype] at hid
  | some id =>
    simp only [yields_ask_bind, TypeTable.shape_eq_ok_iff]
    constructor
    · rintro ⟨_, ⟨⟨shape, shown⟩, hd, rfl⟩, h⟩
      cases shape <;> obtain ⟨rfl, rfl, rfl⟩ := yields_pure.mp h
      case nullable inner => exact ⟨.nullable id inner shown htype hd, rfl, rfl⟩
      case reference => exact ⟨.reference id _ htype hd rfl, rfl, rfl⟩
      case anonymous => exact ⟨.reference id _ htype hd rfl, rfl, rfl⟩
      all_goals exact ⟨.other id _ htype hd rfl, rfl, rfl⟩
    · rintro ⟨h, rfl, rfl⟩
      cases h with
      | untyped hid => simp [htype] at hid
      | nullable id' inner shown hid hd =>
        obtain rfl : id = id' := by simpa [htype] using hid
        exact ⟨_, ⟨_, hd, rfl⟩, by simp⟩
      | reference id' d hid hd hshape =>
        obtain rfl : id = id' := by simpa [htype] using hid
        refine ⟨_, ⟨_, hd, rfl⟩, ?_⟩
        cases hd' : d.shape <;> simp_all [TypeShape.isReference]
      | other id' d hid hd hshape =>
        obtain rfl : id = id' := by simpa [htype] using hid
        refine ⟨_, ⟨_, hd, rfl⟩, ?_⟩
        cases hd' : d.shape <;> simp_all [TypeShape.admitsNull]

/-- The type of a conditional access is lifted as the rule for lifting says. -/
theorem lift_yields_iff {type lifted : Option TypeId} :
    (lift type).Yields s lifted s' ds ↔ LiftRule s type lifted s' ∧ ds = [] := by
  cases type with
  | none =>
    simp only [lift, yields_pure]
    constructor
    · rintro ⟨rfl, rfl, rfl⟩
      exact ⟨.untyped, rfl⟩
    · rintro ⟨h, rfl⟩
      cases h
      exact ⟨rfl, rfl, rfl⟩
  | some id =>
    simp only [lift, yields_ask_bind, TypeTable.shape_eq_ok_iff]
    constructor
    · rintro ⟨_, ⟨d, hd, rfl⟩, h⟩
      split at h
      · next hvoid =>
        obtain ⟨rfl, rfl, rfl⟩ := yields_pure.mp h
        exact ⟨.void id d hd hvoid, rfl⟩
      · next hother =>
        simp only [yields_bind, yields_build, yields_pure] at h
        obtain ⟨made, _, _, _, ⟨t, hmade, rfl, rfl⟩, ⟨rfl, rfl, rfl⟩, rfl⟩ := h
        exact ⟨.nullable id d made t hd (by simpa using hother) hmade, rfl⟩
    · rintro ⟨h, rfl⟩
      cases h with
      | void _ d hd hvoid => exact ⟨_, ⟨d, hd, rfl⟩, by simp [hvoid]⟩
      | nullable _ d made t hd hother hmade =>
        refine ⟨_, ⟨d, hd, rfl⟩, ?_⟩
        simp only [hother, Bool.false_eq_true, if_false, yields_bind, yields_build, yields_pure]
        exact ⟨made, _, [], [], ⟨t, hmade, rfl, rfl⟩, ⟨rfl, rfl, rfl⟩, rfl⟩

/-- A call is bound as the rule for calls says, and the store is left alone. -/
theorem bindCall_yields_iff {callee : Expr} {target : BoundExpr} {arguments : List BoundExpr} :
    (ctx.bindCall source callee target arguments).Yields s b s' ds ↔
      CallRule ctx source callee target arguments b ds ∧ s' = s := by
  unfold bindCall
  constructor
  · intro h
    split at h
    · next hfaulty =>
      obtain ⟨rfl, rfl, rfl⟩ := yields_pure.mp h
      exact ⟨.faulty hfaulty, rfl⟩
    · next hclean =>
      split at h
      · next name f =>
        split at h
        · next hlength =>
          obtain ⟨rfl, rfl, rfl⟩ := yields_pure.mp h
          exact ⟨.call name f rfl hlength, rfl⟩
        · next hlength =>
          obtain ⟨rfl, rfl, rfl⟩ := reject_yields_iff.mp h
          exact ⟨.arity name f rfl hlength, rfl⟩
      · next hother =>
        obtain ⟨rfl, rfl, rfl⟩ := reject_yields_iff.mp h
        exact ⟨.notInvocable (by simpa using hclean) hother, rfl⟩
  · rintro ⟨h, rfl⟩
    cases h with
    | faulty hfaulty => simp [hfaulty]
    | call name f htarget hlength => simp [htarget, BoundExpr.hasAnyErrors, hlength]
    | arity name f htarget hlength => simp [htarget, BoundExpr.hasAnyErrors, hlength, mistake]
    | notInvocable hclean hother =>
      cases target <;> simp_all [mistake]

/-- A literal is bound as the rule for literals says, without a report. -/
theorem bindLiteral_yields_iff {l : Literal} :
    (bindLiteral source l).Yields s b s' ds ↔ LiteralRule s source l b s' ∧ ds = [] := by
  have htyped (k : Builtin) (hk : builtin? l.kind = some k) :
      (do let id ← Action.make (·.ensure k); pure (BoundExpr.literal source (some id) l)).Yields
        s b s' ds ↔ LiteralRule s source l b s' ∧ ds = [] := by
    simp only [yields_make_bind, yields_pure]
    constructor
    · rintro ⟨rfl, rfl, rfl⟩
      exact ⟨.typed k hk, rfl⟩
    · rintro ⟨h, rfl⟩
      cases h with
      | typed k' hk' =>
        obtain rfl : k = k' := by simpa [hk] using hk'
        exact ⟨rfl, rfl, rfl⟩
      | untyped hk' => simp [hk] at hk'
  have huntyped (hk : builtin? l.kind = none) :
      (pure (BoundExpr.literal source none l) : Action BoundExpr).Yields s b s' ds ↔
        LiteralRule s source l b s' ∧ ds = [] := by
    simp only [yields_pure]
    constructor
    · rintro ⟨rfl, rfl, rfl⟩
      exact ⟨.untyped hk, rfl⟩
    · rintro ⟨h, rfl⟩
      cases h with
      | typed k' hk' => simp [hk] at hk'
      | untyped => exact ⟨rfl, rfl, rfl⟩
  unfold bindLiteral
  cases hkind : l.kind with
  | int => exact htyped .int (by simp [hkind, builtin?])
  | string => exact htyped .string (by simp [hkind, builtin?])
  | bool => exact htyped .bool (by simp [hkind, builtin?])
  | null | other => exact huntyped (by simp [hkind, builtin?])

/-- Whether a node can be part of a string is what the rule for it says. -/
theorem joinsStrings_yields_iff {joins : Bool} :
    (joinsStrings b).Yields s joins s' ds ↔ JoinRule s.table b joins ∧ s' = s ∧ ds = [] := by
  unfold joinsStrings
  constructor
  · intro h
    split at h
    · next source type l htype =>
      obtain ⟨rfl, rfl, rfl⟩ := yields_pure.mp h
      exact ⟨.literal source type l rfl htype, rfl, rfl⟩
    · next hother htype =>
      obtain ⟨rfl, rfl, rfl⟩ := yields_pure.mp h
      exact ⟨.untyped htype hother, rfl, rfl⟩
    · next id htype =>
      simp only [yields_ask_bind, TypeTable.shape_eq_ok_iff, yields_pure] at h
      obtain ⟨_, ⟨d, hd, rfl⟩, rfl, rfl, rfl⟩ := h
      exact ⟨.typed id d htype hd, rfl, rfl⟩
  · rintro ⟨h, rfl, rfl⟩
    cases h with
    | literal source type l hb htype => simp [hb, htype, BoundExpr.type?]
    | untyped htype hother => simp [htype]
    | typed id d htype hd =>
      simp only [htype, yields_ask_bind, TypeTable.shape_eq_ok_iff]
      exact ⟨_, ⟨d, hd, rfl⟩, yields_pure.mpr ⟨rfl, rfl, rfl⟩⟩

/-- The type of a sum is the one that the rule for sums gives once the types of sums exist. -/
theorem sumType?_yields_iff {left right : BoundExpr} {type : Option TypeId} :
    (sumType? left right).Yields s type s' ds ↔
      SumRule s.withSumTypes.table (s.table.ensure .int).1
          ((s.table.ensure .int).2.ensure .string).1 left right type ∧
        s' = s.withSumTypes ∧ ds = [] := by
  simp only [sumType?, yields_make_bind]
  -- Both sum types are made before the operands are compared, so that every case below stands over
  -- the store that has them.
  rw [← Store.withSumTypes]
  constructor
  · intro h
    split at h
    · next hint =>
      obtain ⟨rfl, rfl, rfl⟩ := yields_pure.mp h
      exact ⟨.int hint.1 hint.2, rfl, rfl⟩
    · next hint =>
      split at h
      · next hstring =>
        -- The right side is asked only once the left side joins strings.
        simp only [yields_bind, joinsStrings_yields_iff] at h
        obtain ⟨_, _, _, _, ⟨hleft, rfl, rfl⟩, h, rfl⟩ := h
        split at h
        · next hjoins =>
          simp only [yields_bind, joinsStrings_yields_iff] at h
          obtain ⟨_, _, _, _, ⟨hright, rfl, rfl⟩, h, rfl⟩ := h
          split at h
          · next hjoins' =>
            obtain ⟨rfl, rfl, rfl⟩ := yields_pure.mp h
            exact ⟨.joined hint hstring (hjoins ▸ hleft) (hjoins' ▸ hright), rfl, rfl⟩
          · next hapart =>
            obtain ⟨rfl, rfl, rfl⟩ := yields_pure.mp h
            rw [Bool.not_eq_true] at hapart
            exact ⟨.rightApart hint hstring (hjoins ▸ hleft) (hapart ▸ hright), rfl, rfl⟩
        · next hapart =>
          obtain ⟨rfl, rfl, rfl⟩ := yields_pure.mp h
          rw [Bool.not_eq_true] at hapart
          exact ⟨.leftApart hint hstring (hapart ▸ hleft), rfl, rfl⟩
      · next hstring =>
        obtain ⟨rfl, rfl, rfl⟩ := yields_pure.mp h
        exact ⟨.other hint hstring, rfl, rfl⟩
  · rintro ⟨h, rfl, rfl⟩
    cases h with
    | int hleft hright => simp [hleft, hright]
    | joined hint hstring hleft hright =>
      rw [if_neg hint, if_pos hstring]
      simp only [yields_bind, joinsStrings_yields_iff]
      refine ⟨true, _, [], [], ⟨hleft, rfl, rfl⟩, ?_, rfl⟩
      simp only [if_true, yields_bind, joinsStrings_yields_iff]
      exact ⟨true, _, [], [], ⟨hright, rfl, rfl⟩, by simp, rfl⟩
    | leftApart hint hstring hleft =>
      rw [if_neg hint, if_pos hstring]
      simp only [yields_bind, joinsStrings_yields_iff]
      exact ⟨false, _, [], [], ⟨hleft, rfl, rfl⟩, by simp, rfl⟩
    | rightApart hint hstring hleft hright =>
      rw [if_neg hint, if_pos hstring]
      simp only [yields_bind, joinsStrings_yields_iff]
      refine ⟨true, _, [], [], ⟨hleft, rfl, rfl⟩, ?_, rfl⟩
      simp only [if_true, yields_bind, joinsStrings_yields_iff]
      exact ⟨false, _, [], [], ⟨hright, rfl, rfl⟩, by simp, rfl⟩
    | other hint hstring => simp [hint, hstring]

/-- A binary expression is bound as its rule says. -/
theorem bindBinary_yields_iff {op : String} {left right : BoundExpr} :
    (ctx.bindBinary source op left right).Yields s b s' ds ↔
      BinaryRule ctx source op s left right b s' ds := by
  unfold bindBinary
  constructor
  · intro h
    split at h
    · next hfaulty =>
      obtain ⟨rfl, rfl, rfl⟩ := yields_pure.mp h
      exact .faulty hfaulty
    · next hclean =>
      obtain ⟨hleft, hright⟩ : left.hasAnyErrors = false ∧ right.hasAnyErrors = false := by
        simpa using hclean
      simp only [yields_bind, sumType?_yields_iff] at h
      obtain ⟨type, _, _, _, ⟨hsum, rfl, rfl⟩, h, rfl⟩ := h
      cases type with
      | some id =>
        obtain ⟨rfl, rfl, rfl⟩ := yields_pure.mp h
        exact .sum id hleft hright hsum
      | none =>
        simp only [yields_bind, describe_yields_iff] at h
        obtain ⟨shownLeft, _, _, _, ⟨hshown, rfl, rfl⟩,
          ⟨shownRight, _, _, _, ⟨hshown', rfl, rfl⟩, h, rfl⟩, rfl⟩ := h
        obtain ⟨rfl, rfl, rfl⟩ := reject_yields_iff.mp h
        exact .mistake shownLeft shownRight hleft hright hsum hshown hshown'
  · intro h
    cases h with
    | faulty hfaulty => simp [hfaulty]
    | sum id hleft hright hsum =>
      simp only [hleft, hright, Bool.or_self, Bool.false_eq_true, if_false, yields_bind,
        sumType?_yields_iff]
      exact ⟨some id, _, [], [], ⟨hsum, rfl, rfl⟩, by simp, rfl⟩
    | mistake shownLeft shownRight hleft hright hsum hshown hshown' =>
      simp only [hleft, hright, Bool.or_self, Bool.false_eq_true, if_false, yields_bind,
        sumType?_yields_iff]
      refine ⟨none, _, [], _, ⟨hsum, rfl, rfl⟩, ?_, rfl⟩
      simp only [yields_bind, describe_yields_iff]
      exact ⟨shownLeft, _, [], _, ⟨hshown, rfl, rfl⟩, ⟨shownRight, _, [], _, ⟨hshown', rfl, rfl⟩,
        reject_yields_iff.mpr ⟨rfl, rfl, rfl⟩, rfl⟩, rfl⟩

/-! ## Fields of creations -/

/-- The type of a field is the one that the rule for field types gives. -/
theorem typeOf_yields_iff {span : Span} {made : TypeId × Bool} :
    (ResolvedField.typeOf b span).Yields s made s' ds ↔
      FieldTypeRule s b span made.1 made.2 s' ds := by
  unfold ResolvedField.typeOf
  constructor
  · intro h
    cases htype : b.type? with
    | none =>
      simp only [htype, yields_make_bind] at h
      split at h
      · next hfaulty =>
        obtain ⟨rfl, rfl, rfl⟩ := yields_pure.mp h
        exact .faultyUntyped hfaulty htype
      · next hclean =>
        simp only [yields_report_bind, yields_pure] at h
        obtain ⟨_, ⟨rfl, rfl, rfl⟩, rfl⟩ := h
        exact .untyped (by simpa using hclean) htype
    | some id =>
      simp only [htype] at h
      split at h
      · next hfaulty =>
        obtain ⟨rfl, rfl, rfl⟩ := yields_pure.mp h
        exact .faulty id hfaulty htype
      · next hclean =>
        rw [Bool.not_eq_true] at hclean
        simp only [yields_ask_bind, TypeTable.shape_eq_ok_iff] at h
        obtain ⟨_, ⟨d, hd, rfl⟩, h⟩ := h
        split at h
        · next hvoid =>
          simp only [yields_ask_bind, TypeTable.display_eq_ok_iff, yields_make_bind,
            yields_report_bind, yields_pure] at h
          obtain ⟨_, ⟨d', hd', rfl⟩, _, ⟨rfl, rfl, rfl⟩, rfl⟩ := h
          -- The type is looked up twice, for its shape and for its name.
          obtain rfl : d = d' := Option.some.inj (hd.symm.trans hd')
          exact .void id d hclean htype hd hvoid
        · next hother =>
          rw [Bool.not_eq_true] at hother
          split at h
          · next hdenied =>
            simp only [yields_ask_bind, TypeTable.display_eq_ok_iff, yields_report_bind,
              yields_pure] at h
            obtain ⟨_, ⟨d', hd', rfl⟩, _, ⟨rfl, rfl, rfl⟩, rfl⟩ := h
            obtain rfl : d = d' := Option.some.inj (hd.symm.trans hd')
            exact .denied id d hclean htype hd hother hdenied
          · next husable =>
            obtain ⟨rfl, rfl, rfl⟩ := yields_pure.mp h
            exact .usable id d hclean htype hd hother (by simpa using husable)
  · obtain ⟨type, faulty⟩ := made
    intro h
    cases h with
    | faulty _ hfaulty htype => simp [htype, hfaulty]
    | faultyUntyped hfaulty htype => simp [htype, hfaulty]
    | untyped hclean htype => simp [htype, hclean]
    | void id d hclean htype hd hvoid => simp [htype, hclean, hd, hvoid]
    | denied _ d hclean htype hd hother hdenied =>
      simp only [htype, hclean, Bool.false_eq_true, if_false, yields_ask_bind,
        TypeTable.shape_eq_ok_iff]
      refine ⟨_, ⟨d, hd, rfl⟩, ?_⟩
      simp [hother, hdenied, hd]
    | usable _ d hclean htype hd hother husable =>
      simp only [htype, hclean, Bool.false_eq_true, if_false, yields_ask_bind,
        TypeTable.shape_eq_ok_iff]
      refine ⟨_, ⟨d, hd, rfl⟩, ?_⟩
      simp [hother, husable]

/-- The name of a field is kept exactly where the rule for field names keeps it. -/
theorem keptName_yields_iff {used : List String} {init : Initializer Expr} {name : Option Name}
    {made : Option String × Bool} :
    (ResolvedField.keptName ctx used init name).Yields s made s' ds ↔
      FieldNameRule ctx used init name made.1 ds ∧ made.2 = made.1.isNone ∧ s' = s := by
  unfold ResolvedField.keptName
  constructor
  · intro h
    split at h
    · next hname =>
      obtain ⟨rfl, rfl, rfl⟩ := yields_pure.mp h
      exact ⟨.malformed hname, rfl, rfl⟩
    · next n hname =>
      split at h
      · next hused =>
        simp only [yields_report_bind, yields_pure] at h
        obtain ⟨_, ⟨rfl, rfl, rfl⟩, rfl⟩ := h
        exact ⟨.repeated n hname hused, rfl, rfl⟩
      · next hnew =>
        obtain ⟨rfl, rfl, rfl⟩ := yields_pure.mp h
        exact ⟨.kept n hname hnew, rfl, rfl⟩
  · obtain ⟨kept, faulty⟩ := made
    rintro ⟨h, hfaulty, rfl⟩
    dsimp only at hfaulty
    subst hfaulty
    cases h with
    | malformed hname => simp [hname]
    | repeated n hname hused => simp [hname, hused, mistake]
    | kept n hname hnew => simp [hname, hnew]

/-- A field is resolved as the rule for fields says. -/
theorem resolve_yields_iff {index : Nat} {used : List String} {init : Initializer Expr}
    {value : BoundExpr} {field : ResolvedField} :
    (ResolvedField.resolve ctx index used init (ResolvedField.shapeOf init).1
        (ResolvedField.shapeOf init).2 value).Yields s field s' ds ↔
      FieldRule ctx index used init s value field s' ds := by
  unfold ResolvedField.resolve
  simp only [yields_bind, keptName_yields_iff, typeOf_yields_iff, yields_ask, yields_pure]
  constructor
  · rintro ⟨⟨kept, badName⟩, _, nameReports, _, ⟨hname, hbad, rfl⟩,
      ⟨⟨type, badType⟩, s', typeReports, _, htype, ⟨nullability, _, _, _, ⟨hnullability, rfl, rfl⟩,
        ⟨rfl, rfl, rfl⟩, rfl⟩, rfl⟩, rfl⟩
    dsimp only at hname hbad htype hnullability ⊢
    subst hbad
    rw [List.append_nil, List.append_nil]
    exact .field kept nameReports type badType s' typeReports nullability hname htype hnullability
  · rintro ⟨kept, nameReports, type, badType, _, typeReports, nullability, hname, htype,
      hnullability⟩
    exact ⟨(kept, kept.isNone), _, _, _, ⟨hname, rfl, rfl⟩, ⟨(type, badType), _, _, _, htype,
      ⟨nullability, _, [], [], ⟨hnullability, rfl, rfl⟩, ⟨rfl, rfl, rfl⟩, rfl⟩,
      (List.append_nil _).symm⟩, rfl⟩

/-- The fields of a creation become its node, the type that the registry gives for them, and the
report on where the creation stands. -/
theorem bindFields_yields_iff {new : Option Position} {resolved : List ResolvedField} :
    (bindFields ctx source new resolved).Yields s b s' ds ↔
      ∃ type, s.intern (resolved.map (·.field)) (ctx.span new) = .ok (type, s') ∧
        b = creationNode ctx source new resolved type ∧ ds = ctx.creationReports new := by
  simp only [bindFields, yields_bind, yields_intern]
  constructor
  · rintro ⟨type, _, _, _, ⟨htype, rfl⟩, h, rfl⟩
    refine ⟨type, ?_⟩
    split at h
    · next hdenied =>
      simp only [yields_note_bind, yields_report_bind, yields_pure] at h
      obtain ⟨_, ⟨rfl, rfl, rfl⟩, rfl⟩ := h
      simp_all [creationNode, creationReports, mistake]
    · next hallowed =>
      obtain ⟨rfl, rfl, rfl⟩ := yields_pure.mp h
      simp_all [creationNode, creationReports]
  · rintro ⟨type, htype, rfl, rfl⟩
    refine ⟨type, _, [], ctx.creationReports new, ⟨htype, rfl⟩, ?_, rfl⟩
    by_cases hallowed : allowsCreation ctx.member = true <;>
      simp [creationNode, creationReports, mistake, hallowed]

/-! ## Expressions -/

mutual

/-- What binding an expression yields, it yields by the rules. -/
theorem binds_of_yields {r : Option Receiver} {e : Expr} {s s' : Store} {b : BoundExpr}
    {ds : List Diagnostic} (h : (ctx.bindExpr r e).Yields s b s' ds) :
    Binds ctx r e s b s' ds := by
  cases e with
  | identifier name =>
      rw [bindExpr, bindName_yields_iff] at h
      obtain ⟨h, rfl⟩ := h
      exact .name _ _ _ _ _ h
  | memberAccess p target name =>
      rw [bindExpr, yields_table_bind] at h
      split at h
      · next owner howner =>
        obtain ⟨h, rfl⟩ := bindStaticField_yields_iff.mp h
        exact .staticAccess _ _ _ _ _ owner _ _ howner h
      · next howner =>
        rw [yields_bind] at h
        obtain ⟨value, _, _, _, hvalue, h, rfl⟩ := h
        obtain ⟨h, rfl⟩ := bindInstanceField_yields_iff.mp h
        exact .instanceAccess _ _ _ _ _ value _ _ _ _ howner (binds_of_yields hvalue) h
  | qualifiedName p left right =>
      rw [bindExpr, yields_table_bind] at h
      split at h
      · next owner howner =>
        obtain ⟨h, rfl⟩ := bindStaticField_yields_iff.mp h
        exact .staticPath _ _ _ _ _ owner _ _ howner h
      · next name howner hname =>
        obtain ⟨rfl, rfl, rfl⟩ := reject_yields_iff.mp h
        cases left <;> cases hname
        exact .unknownOwner _ _ _ _ _ howner
      · next howner hname =>
        rw [yields_bind] at h
        obtain ⟨inner, _, _, _, hinner, h, rfl⟩ := h
        obtain ⟨hpath, rfl, rfl⟩ := rejectPath_yields_iff.mp h
        exact .longPath _ _ _ _ _ inner _ _ _ howner hname (binds_of_yields hinner) hpath
  | conditionalAccess p target access =>
      rw [bindExpr, yields_bind] at h
      obtain ⟨bound, _, _, _, hbound, h, rfl⟩ := h
      split at h
      · next hfaulty =>
        obtain ⟨rfl, rfl, rfl⟩ := yields_pure.mp h
        -- The access is not bound, so the receiver has made all the reports there are.
        rw [List.append_nil]
        exact .faultyTarget _ _ _ _ _ bound _ _ (binds_of_yields hbound) hfaulty
      · next hclean =>
        rw [Bool.not_eq_true] at hclean
        simp only [yields_bind, receiverType?_yields_iff] at h
        obtain ⟨type, _, _, _, ⟨htype, rfl, rfl⟩, h, rfl⟩ := h
        cases type with
        | none =>
            simp only [rejectReceiver, yields_bind, describe_yields_iff] at h
            obtain ⟨shown, _, _, _, ⟨hshown, rfl, rfl⟩, h, rfl⟩ := h
            obtain ⟨rfl, rfl, rfl⟩ := reject_yields_iff.mp h
            exact .badReceiver _ _ _ _ _ bound _ _ shown (binds_of_yields hbound) hclean htype
              hshown
        | some type =>
            simp only [yields_bind, lift_yields_iff, yields_pure] at h
            obtain ⟨accessed, _, _, _, haccess, ⟨lifted, _, _, _, ⟨hlift, rfl⟩, ⟨rfl, rfl, rfl⟩,
              rfl⟩, rfl⟩ := h
            have hrule := Binds.conditionalAccess r p target access s bound _ _ type accessed _ _
              lifted _ (binds_of_yields hbound) hclean htype (binds_of_yields haccess) hlift
            simpa using hrule
  | memberBinding p name =>
      cases r with
      -- Without a receiver a member binding is a fault and yields nothing.
      | none => simp [bindExpr] at h
      | some receiver =>
          rw [bindExpr, bindInstanceField_yields_iff] at h
          obtain ⟨h, rfl⟩ := h
          exact .memberBinding _ _ _ _ _ _ h
  | invocation p callee arguments =>
      rw [bindExpr] at h
      simp only [yields_bind, bindCall_yields_iff] at h
      obtain ⟨target, _, _, _, htarget, ⟨bound, _, _, _, hbound, ⟨h, rfl⟩, rfl⟩, rfl⟩ := h
      -- The rule lists the reports of callee, arguments and call; running them nests to the right.
      rw [← List.append_assoc]
      exact .invocation _ _ _ _ _ target _ _ bound _ _ _ _ (binds_of_yields htarget)
        (bindsAll_of_yields hbound) h
  | literal p l =>
      rw [bindExpr, bindLiteral_yields_iff] at h
      obtain ⟨h, rfl⟩ := h
      exact .literal _ _ _ _ _ _ h
  | binary p op left right =>
      rw [bindExpr] at h
      simp only [yields_bind, bindBinary_yields_iff] at h
      obtain ⟨boundLeft, _, _, _, hleft, ⟨boundRight, _, _, _, hright, h, rfl⟩, rfl⟩ := h
      rw [← List.append_assoc]
      exact .binary _ _ _ _ _ _ boundLeft _ _ boundRight _ _ _ _ _ (binds_of_yields hleft)
        (binds_of_yields hright) h
  | parenthesized p inner =>
      rw [bindExpr] at h
      exact .parenthesized _ _ _ _ _ _ _ (binds_of_yields h)
  | creation p new initializers =>
      rw [bindExpr] at h
      simp only [yields_bind, bindFields_yields_iff] at h
      obtain ⟨resolved, _, _, _, hresolved, ⟨type, htype, rfl, rfl⟩, rfl⟩ := h
      exact .creation _ _ _ _ _ resolved _ _ type _ (bindsFields_of_yields hresolved) htype
  | error p text =>
      obtain ⟨rfl, rfl, rfl⟩ := yields_pure.mp h
      exact .error _ _ _ _

/-- What binding expressions in order yields, it yields by the rules. -/
theorem bindsAll_of_yields {r : Option Receiver} {es : List Expr} {s s' : Store}
    {bs : List BoundExpr} {ds : List Diagnostic}
    (h : (ctx.bindExprs r es).Yields s bs s' ds) : BindsAll ctx r es s bs s' ds := by
  cases es with
  | nil =>
      obtain ⟨rfl, rfl, rfl⟩ := yields_pure.mp h
      exact .nil _ _
  | cons e es =>
      rw [bindExprs] at h
      simp only [yields_bind, yields_pure] at h
      obtain ⟨b, _, _, _, hb, ⟨bs, _, _, _, hbs, ⟨rfl, rfl, rfl⟩, rfl⟩, rfl⟩ := h
      rw [List.append_nil]
      exact .cons _ _ _ _ b _ _ bs _ _ (binds_of_yields hb) (bindsAll_of_yields hbs)

/-- What binding initializers in order yields, it yields by the rules. -/
theorem bindsFields_of_yields {r : Option Receiver} {index : Nat} {used : List String}
    {inits : List (Initializer Expr)} {s s' : Store} {fields : List ResolvedField}
    {ds : List Diagnostic} (h : (ctx.bindInitializers r index used inits).Yields s fields s' ds) :
    BindsFields ctx r index used inits s fields s' ds := by
  cases inits with
  | nil =>
      obtain ⟨rfl, rfl, rfl⟩ := yields_pure.mp h
      exact .nil _ _ _ _
  | cons init rest =>
      obtain ⟨place, label, e⟩ := init
      rw [bindInitializers] at h
      have htail {t : Store} {ds : List Diagnostic}
          (h : (do
            let value ← ctx.bindExpr r e
            let field ← ResolvedField.resolve ctx index used ⟨place, label, e⟩
              (ResolvedField.shapeOf ⟨place, label, e⟩).1
              (ResolvedField.shapeOf ⟨place, label, e⟩).2 value
            let others ← ctx.bindInitializers r (index + 1) (used ++ field.name.toList) rest
            pure (field :: others)).Yields s fields t ds) :
          BindsFields ctx r index used (⟨place, label, e⟩ :: rest) s fields t
            (ctx.declaratorReports ⟨place, label, e⟩ ++ ds) := by
        simp only [yields_bind, resolve_yields_iff, yields_pure] at h
        obtain ⟨value, _, _, _, hvalue, ⟨field, _, _, _, hfield, ⟨others, _, _, _, hothers,
          ⟨rfl, rfl, rfl⟩, rfl⟩, rfl⟩, rfl⟩ := h
        have hrule := BindsFields.cons r index used ⟨place, label, e⟩ rest s value _ _ field _ _
          others _ _ (binds_of_yields hvalue) hfield (bindsFields_of_yields hothers)
        simpa using hrule
      simp only at h
      split at h
      · next hnameless =>
        rw [yields_report_bind] at h
        obtain ⟨reports, h, rfl⟩ := h
        simpa [declaratorReports, hnameless, mistake] using htail h
      · next hnamed => simpa [declaratorReports, hnamed] using htail h

end

mutual

/-- What an expression is bound to by the rules, binding it yields. -/
theorem yields_of_binds {r : Option Receiver} {e : Expr} {s s' : Store} {b : BoundExpr}
    {ds : List Diagnostic} (h : Binds ctx r e s b s' ds) :
    (ctx.bindExpr r e).Yields s b s' ds := by
  cases h with
  | name _ _ _ _ _ h =>
      rw [bindExpr, bindName_yields_iff]
      exact ⟨h, rfl⟩
  | staticAccess _ _ _ _ _ owner _ _ howner h =>
      rw [bindExpr, yields_table_bind]
      simp only [howner]
      exact bindStaticField_yields_iff.mpr ⟨h, rfl⟩
  | instanceAccess _ _ _ _ _ value _ ds _ ds' howner hvalue h =>
      rw [bindExpr, yields_table_bind]
      simp only [howner]
      exact yields_bind.mpr ⟨value, _, ds, ds', yields_of_binds hvalue,
        bindInstanceField_yields_iff.mpr ⟨h, rfl⟩, rfl⟩
  | staticPath _ _ _ _ _ owner _ _ howner h =>
      rw [bindExpr, yields_table_bind]
      simp only [howner]
      exact bindStaticField_yields_iff.mpr ⟨h, rfl⟩
  | unknownOwner _ _ name _ _ howner =>
      rw [bindExpr, yields_table_bind]
      simp only [howner, simpleName?]
      exact reject_yields_iff.mpr ⟨rfl, rfl, rfl⟩
  | longPath _ _ _ _ _ inner _ ds ds' howner hname hinner h =>
      rw [bindExpr, yields_table_bind]
      simp only [howner, hname]
      exact yields_bind.mpr ⟨inner, _, ds, ds', yields_of_binds hinner,
        rejectPath_yields_iff.mpr ⟨h, rfl, rfl⟩, rfl⟩
  | faultyTarget _ _ _ _ _ bound _ _ hbound hfaulty =>
      rw [bindExpr, yields_bind]
      exact ⟨bound, _, _, [], yields_of_binds hbound, by simp [hfaulty], by simp⟩
  | badReceiver _ _ _ _ _ bound _ ds shown hbound hclean htype hshown =>
      rw [bindExpr, yields_bind]
      refine ⟨bound, _, ds, _, yields_of_binds hbound, ?_, rfl⟩
      simp only [hclean, Bool.false_eq_true, if_false, yields_bind, receiverType?_yields_iff]
      refine ⟨none, _, [], _, ⟨htype, rfl, rfl⟩, ?_, rfl⟩
      simp only [rejectReceiver, yields_bind, describe_yields_iff]
      exact ⟨shown, _, [], _, ⟨hshown, rfl, rfl⟩, reject_yields_iff.mpr ⟨rfl, rfl, rfl⟩, rfl⟩
  | conditionalAccess _ _ _ _ _ bound _ ds type accessed _ ds' lifted _ hbound hclean htype haccess
      hlift =>
      rw [bindExpr, yields_bind]
      refine ⟨bound, _, ds, ds', yields_of_binds hbound, ?_, rfl⟩
      simp only [hclean, Bool.false_eq_true, if_false, yields_bind, receiverType?_yields_iff]
      refine ⟨some type, _, [], ds', ⟨htype, rfl, rfl⟩, ?_, rfl⟩
      simp only [yields_bind, lift_yields_iff]
      exact ⟨accessed, _, ds', [], yields_of_binds haccess,
        ⟨lifted, _, [], [], ⟨hlift, rfl⟩, by simp, rfl⟩, by simp⟩
  | memberBinding _ _ _ _ _ _ h =>
      rw [bindExpr, bindInstanceField_yields_iff]
      exact ⟨h, rfl⟩
  | invocation _ _ _ _ _ target _ ds bound _ ds' _ ds'' htarget hbound h =>
      rw [bindExpr]
      simp only [yields_bind, bindCall_yields_iff]
      exact ⟨target, _, ds, ds' ++ ds'', yields_of_binds htarget,
        ⟨bound, _, ds', ds'', yieldsAll_of_binds hbound, ⟨h, rfl⟩, rfl⟩, by simp⟩
  | literal _ _ _ _ _ _ h =>
      rw [bindExpr, bindLiteral_yields_iff]
      exact ⟨h, rfl⟩
  | binary _ _ _ _ _ _ boundLeft _ ds boundRight _ ds' _ _ ds'' hleft hright h =>
      rw [bindExpr]
      simp only [yields_bind, bindBinary_yields_iff]
      exact ⟨boundLeft, _, ds, ds' ++ ds'', yields_of_binds hleft,
        ⟨boundRight, _, ds', ds'', yields_of_binds hright, h, rfl⟩, by simp⟩
  | parenthesized _ _ _ _ _ _ _ h =>
      rw [bindExpr]
      exact yields_of_binds h
  | creation _ _ _ _ _ resolved _ ds type _ hresolved htype =>
      rw [bindExpr]
      simp only [yields_bind, bindFields_yields_iff]
      exact ⟨resolved, _, ds, _, yieldsFields_of_binds hresolved, ⟨type, htype, rfl, rfl⟩, rfl⟩
  | error _ _ _ _ => exact yields_pure.mpr ⟨rfl, rfl, rfl⟩

/-- What expressions are bound to in order by the rules, binding them yields. -/
theorem yieldsAll_of_binds {r : Option Receiver} {es : List Expr} {s s' : Store}
    {bs : List BoundExpr} {ds : List Diagnostic} (h : BindsAll ctx r es s bs s' ds) :
    (ctx.bindExprs r es).Yields s bs s' ds := by
  cases h with
  | nil _ _ => exact yields_pure.mpr ⟨rfl, rfl, rfl⟩
  | cons _ _ _ _ b _ ds bs _ ds' hb hbs =>
      rw [bindExprs]
      simp only [yields_bind]
      exact ⟨b, _, ds, ds', yields_of_binds hb,
        ⟨bs, _, ds', [], yieldsAll_of_binds hbs, by simp, by simp⟩, rfl⟩

/-- What initializers make in order by the rules, binding them yields. -/
theorem yieldsFields_of_binds {r : Option Receiver} {index : Nat} {used : List String}
    {inits : List (Initializer Expr)} {s s' : Store} {fields : List ResolvedField}
    {ds : List Diagnostic} (h : BindsFields ctx r index used inits s fields s' ds) :
    (ctx.bindInitializers r index used inits).Yields s fields s' ds := by
  cases h with
  | nil _ _ _ _ => exact yields_pure.mpr ⟨rfl, rfl, rfl⟩
  | cons _ _ _ init rest _ value _ ds field _ ds' others _ ds'' hvalue hfield hothers =>
      obtain ⟨place, label, e⟩ := init
      -- Whether or not the initializer has a usable shape, the same steps follow the report on it.
      have htail : (do
          let value ← ctx.bindExpr r e
          let field ← ResolvedField.resolve ctx index used ⟨place, label, e⟩
            (ResolvedField.shapeOf ⟨place, label, e⟩).1
            (ResolvedField.shapeOf ⟨place, label, e⟩).2 value
          let others ← ctx.bindInitializers r (index + 1) (used ++ field.name.toList) rest
          pure (field :: others)).Yields s (field :: others) s' (ds ++ (ds' ++ ds'')) := by
        simp only [yields_bind, resolve_yields_iff]
        exact ⟨value, _, ds, _, yields_of_binds hvalue,
          ⟨field, _, ds', _, hfield,
            ⟨others, _, ds'', [], yieldsFields_of_binds hothers, by simp, by simp⟩, rfl⟩, rfl⟩
      rw [bindInitializers]
      simp only
      split
      · next hnameless =>
        rw [yields_report_bind]
        exact ⟨_, htail, by simp [declaratorReports, hnameless, mistake]⟩
      · next hnamed => simpa [declaratorReports, hnamed] using htail

end

/-- Binding an expression yields just what the rules bind it to. -/
theorem bindExpr_yields_iff {e : Expr} :
    (ctx.bindExpr r e).Yields s b s' ds ↔ Binds ctx r e s b s' ds :=
  ⟨binds_of_yields, yields_of_binds⟩

end AnonymousObjects.Context

namespace AnonymousObjects

variable {ctx : Context} {r : Option Receiver} {e : Syntax.Expr} {s s' t : Store}
  {b b' : BoundExpr} {ds ds' : List Diagnostic}

/-- An expression is bound to one node from one store. -/
theorem Binds.unique (h : Binds ctx r e s b s' ds) (h' : Binds ctx r e s b' t ds') :
    b' = b ∧ t = s' ∧ ds' = ds :=
  (Context.yields_of_binds h).unique (Context.yields_of_binds h')

end AnonymousObjects
