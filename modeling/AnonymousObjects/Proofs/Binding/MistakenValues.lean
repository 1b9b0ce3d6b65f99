import AnonymousObjects.Proofs.Binding.Rules
import AnonymousObjects.Proofs.Syntax.Postfix

/-!
# Values with mistakes that have a type

A node that could not be bound has no type, and most nodes around it could not be bound either. In
expressions from source text only two forms are left that have a type in spite of a mistake in them:
creations, and calls with a mistake in an argument (`Binds.settled`). A conditional access is none
of them, as what it does begins with the member that it binds: if there is a mistake in it, then it
has no type (`Binds.untyped_of_fromBinding`).
-/

namespace AnonymousObjects.Syntax.Expr

/-! ## Accesses to bound members -/

/-- `e.FromBinding` says that `e` is the member that a conditional access binds, with postfix
operations after it. -/
inductive FromBinding : Expr → Prop where
  | memberBinding (p name) : FromBinding (.memberBinding p name)
  | memberAccess (p target name) : FromBinding target → FromBinding (.memberAccess p target name)
  | invocation (p callee arguments) :
      FromBinding callee → FromBinding (.invocation p callee arguments)
  | conditionalAccess (p target access) :
      FromBinding target → FromBinding access → FromBinding (.conditionalAccess p target access)

/-- What a conditional access does begins with the member that it binds, in all of the
expression. -/
def BindsFirst (e : Expr) : Prop :=
  e.EachConditional fun _ access => access.FromBinding

variable {c e : Expr}

/-- A postfix operation on what starts with a member binding starts with it too. -/
theorem FromBinding.apply (h : e.FromBinding) (op : Postfix) : (op.apply e).FromBinding := by
  cases op with
  | member name => exact .memberAccess _ _ name h
  | conditional name => exact .conditionalAccess _ _ _ h (.memberBinding _ name)
  | call arguments => exact .invocation _ _ arguments h

/-- An operation after a conditional access goes into its second part. -/
theorem FromBinding.extend (h : e.FromBinding) (op : Postfix) :
    (e.extend op.apply).FromBinding := by
  induction h with
  | memberBinding p name => exact .apply (.memberBinding p name) op
  | memberAccess p target name htarget => exact .apply (.memberAccess p target name htarget) op
  | invocation p callee arguments hcallee =>
      exact .apply (.invocation p callee arguments hcallee) op
  | conditionalAccess p target access htarget _ _ ih =>
      exact .conditionalAccess p target _ htarget ih

/-- In source text, what a conditional access does begins with the member that it binds. -/
theorem FromSource.bindsFirst [Text.CharacterNames] (h : e.FromSource) : e.BindsFirst :=
  h.eachConditional ⟨fun _ p name _ => .memberBinding p name, fun _ _ op h => h.extend op⟩

/-! ## Creations as parts -/

/-- The creations in several expressions are those of each. -/
theorem mem_creationsOf {es : List Expr} : c ∈ creationsOf es ↔ ∃ e ∈ es, c ∈ e.creations := by
  induction es with
  | nil => simp [creationsOf]
  | cons e es ih => simp [creationsOf, ih]

/-- The creations in initializers are those of each value. -/
theorem mem_creationsOfInitializers {inits : List (Initializer Expr)} :
    c ∈ creationsOfInitializers inits ↔ ∃ init ∈ inits, c ∈ init.value.creations := by
  induction inits with
  | nil => simp [creationsOfInitializers]
  | cons init inits ih => simp [creationsOfInitializers, ih]

/-- The creations in an expression stand in it. -/
theorem within_of_mem_creations (h : c ∈ e.creations) : c.Within e := by
  induction e using induction_parts with
  | step e ih =>
      refine within_iff.mpr ?_
      cases e with
      | identifier | memberBinding | literal | error => simp [creations] at h
      | memberAccess p target name => exact .inr ⟨target, by simp [parts], ih _ (by simp [parts]) h⟩
      | qualifiedName p left right => exact .inr ⟨left, by simp [parts], ih _ (by simp [parts]) h⟩
      | parenthesized p inner => exact .inr ⟨inner, by simp [parts], ih _ (by simp [parts]) h⟩
      | conditionalAccess p target access =>
          rcases List.mem_append.mp h with h | h
          · exact .inr ⟨target, by simp [parts], ih _ (by simp [parts]) h⟩
          · exact .inr ⟨access, by simp [parts], ih _ (by simp [parts]) h⟩
      | binary p op left right =>
          rcases List.mem_append.mp h with h | h
          · exact .inr ⟨left, by simp [parts], ih _ (by simp [parts]) h⟩
          · exact .inr ⟨right, by simp [parts], ih _ (by simp [parts]) h⟩
      | invocation p callee arguments =>
          rcases List.mem_append.mp h with h | h
          · exact .inr ⟨callee, by simp [parts], ih _ (by simp [parts]) h⟩
          · obtain ⟨a, ha, h⟩ := mem_creationsOf.mp h
            have hpart : a ∈ (invocation p callee arguments).parts := by simp [parts, ha]
            exact .inr ⟨a, hpart, ih a hpart h⟩
      | creation p new inits =>
          rcases List.mem_cons.mp h with h | h
          · exact .inl h
          · obtain ⟨init, hinit, h⟩ := mem_creationsOfInitializers.mp h
            have hpart : init.value ∈ (creation p new inits).parts := by
              simpa [parts] using ⟨init, hinit, rfl⟩
            exact .inr ⟨_, hpart, ih _ hpart h⟩

end AnonymousObjects.Syntax.Expr

namespace AnonymousObjects

open Syntax (Expr Literal Name)

namespace BoundExpr

/-! ## Nodes -/

/-- A node that is no function, and that has no type where there is a mistake in it. -/
structure FailsUntyped (b : BoundExpr) : Prop where
  notFunction : ∀ source f, b ≠ methodGroup source f
  untyped : b.hasAnyErrors = true → b.type? = none

/-- A call of a declared function with as many arguments as it has parameters, and with a mistake in
one of them. -/
inductive MistakenCall (symbols : SymbolTable) : BoundExpr → Prop where
  | call (source f arguments) :
      f ∈ symbols.functions → arguments.length = f.params.length →
      (∃ a ∈ arguments, a.hasAnyErrors = true) → MistakenCall symbols (call source f arguments)

/-- A node in which mistakes and types go together in two ways only. -/
structure Settled (symbols : SymbolTable) (b : BoundExpr) : Prop where
  declared : ∀ source f, b = methodGroup source f → f ∈ symbols.functions
  typed : ∀ id, b.hasAnyErrors = true → b.type? = some id →
    b.isCreation = true ∨ b.MistakenCall symbols

variable {symbols : SymbolTable} {b : BoundExpr}

/-- A bad node has no type and is no function. -/
theorem bad_failsUntyped (source : Expr) (parts : List BoundExpr) :
    (bad source parts).FailsUntyped :=
  ⟨fun _ _ => BoundExpr.noConfusion, fun _ => rfl⟩

/-- A node that has no type where it is mistaken is settled. -/
theorem FailsUntyped.settled (h : b.FailsUntyped) : b.Settled symbols where
  declared source f hb := absurd hb (h.notFunction source f)
  typed id hfaulty hid := by simp [h.untyped hfaulty] at hid

/-- A call with a mistake in an argument is mistaken. -/
theorem MistakenCall.hasAnyErrors (h : b.MistakenCall symbols) : b.hasAnyErrors = true := by
  cases h with
  | call source f arguments _ _ hmistake =>
      rw [BoundExpr.hasAnyErrors, anyHasErrors_eq_any, List.any_eq_true]
      exact hmistake

end BoundExpr

open BoundExpr (FailsUntyped Settled bad_failsUntyped)

variable {ctx : Context} {t : TypeTable} {s s' : Store} {source : Expr} {b : BoundExpr}
  {ds : List Diagnostic}

/-- The node of a static field has no type where it is mistaken. -/
theorem StaticFieldRule.failsUntyped {owner : TypeId} {name : Name}
    (h : StaticFieldRule ctx t source owner name b ds) : b.FailsUntyped := by
  cases h with
  | found field => exact ⟨fun _ _ => BoundExpr.noConfusion, fun hfaulty => by cases hfaulty⟩
  | missing => exact bad_failsUntyped _ _

/-- The node of an instance field has no type where it is mistaken. -/
theorem InstanceFieldRule.failsUntyped {receiver : BoundExpr} {name : Name}
    (h : InstanceFieldRule ctx t source receiver name b ds) : b.FailsUntyped := by
  cases h with
  | faulty => exact bad_failsUntyped _ _
  | found id field hclean =>
      refine ⟨fun _ _ => BoundExpr.noConfusion, fun hfaulty => ?_⟩
      rw [BoundExpr.hasAnyErrors, hclean] at hfaulty
      cases hfaulty
  | missing => exact bad_failsUntyped _ _

/-- The node of a literal is never mistaken. -/
theorem LiteralRule.failsUntyped {l : Literal} (h : LiteralRule s source l b s') :
    b.FailsUntyped := by
  cases h <;> exact ⟨fun _ _ => BoundExpr.noConfusion, fun hfaulty => by cases hfaulty⟩

/-- A binary node has no type where it is mistaken. -/
theorem BinaryRule.failsUntyped {op : String} {left right : BoundExpr}
    (h : BinaryRule ctx source op s left right b s' ds) : b.FailsUntyped := by
  cases h with
  | faulty => exact bad_failsUntyped _ _
  | sum id hleft hright =>
      refine ⟨fun _ _ => BoundExpr.noConfusion, fun hfaulty => ?_⟩
      rw [BoundExpr.hasAnyErrors, hleft, hright] at hfaulty
      cases hfaulty
  | mistake => exact bad_failsUntyped _ _

/-- Only functions can be called. -/
theorem CallRule.failsUntyped {callee : Expr} {target : BoundExpr} {arguments : List BoundExpr}
    (h : CallRule ctx source callee target arguments b ds)
    (htarget : ∀ source f, target ≠ .methodGroup source f) : b.FailsUntyped := by
  cases h with
  | faulty => exact bad_failsUntyped _ _
  | call _ f hf => exact absurd hf (htarget _ f)
  | arity => exact bad_failsUntyped _ _
  | notInvocable => exact bad_failsUntyped _ _

/-- A conditional access to a target without mistakes is as mistaken as what it does, and has a type
only if that has one. -/
theorem LiftRule.failsUntyped {bound accessed : BoundExpr} {lifted : Option TypeId}
    (h : LiftRule s accessed.type? lifted s') (hbound : bound.hasAnyErrors = false)
    (haccessed : accessed.FailsUntyped) :
    (BoundExpr.conditionalAccess source bound accessed lifted).FailsUntyped := by
  refine ⟨fun _ _ => BoundExpr.noConfusion, fun hfaulty => ?_⟩
  rw [BoundExpr.hasAnyErrors, hbound, Bool.false_or] at hfaulty
  rw [haccessed.untyped hfaulty] at h
  cases h
  rfl

/-! ## Expressions -/

/-- What a conditional access does is bound to no function, and has no type where there is a mistake
in it. The induction goes along the postfix operations. -/
theorem Binds.failsUntyped {r : Option Receiver} {e : Expr} (h : Binds ctx r e s b s' ds)
    (he : e.FromBinding) : b.FailsUntyped := by
  induction he generalizing r s b s' ds with
  | memberBinding p name =>
      cases h with
      | memberBinding _ _ _ _ _ _ hrule => exact hrule.failsUntyped
  | memberAccess p target name htarget _ =>
      cases h with
      | staticAccess _ _ _ _ _ _ _ _ _ hrule => exact hrule.failsUntyped
      | instanceAccess _ _ _ _ _ _ _ _ _ _ _ _ hrule => exact hrule.failsUntyped
  | invocation p callee arguments _ ih =>
      cases h with
      | invocation _ _ _ _ _ _ _ _ _ _ _ _ _ hcallee _ hrule =>
          exact hrule.failsUntyped (ih hcallee).notFunction
  | conditionalAccess p target access _ _ _ ih =>
      cases h with
      | faultyTarget => exact bad_failsUntyped _ _
      | badReceiver => exact bad_failsUntyped _ _
      | conditionalAccess _ _ _ _ _ _ _ _ _ _ _ _ _ _ _ hclean _ haccess hlift =>
          exact hlift.failsUntyped hclean (ih haccess)

/-- The node of a name is settled: if it is a function, that is a declared one. -/
theorem NameRule.settled {name : Name} (h : NameRule ctx t name b ds) : b.Settled ctx.symbols := by
  cases h with
  | global g => exact ⟨fun _ _ => BoundExpr.noConfusion, fun _ hfaulty => by cases hfaulty⟩
  | function f _ hf =>
      refine ⟨fun _ g hg => ?_, fun _ hfaulty => by cases hfaulty⟩
      obtain rfl : f = g := by injection hg
      exact List.mem_of_find?_eq_some hf
  | typeName => exact (bad_failsUntyped _ _).settled
  | undefined => exact (bad_failsUntyped _ _).settled

/-- A call of something settled is settled. -/
theorem CallRule.settled {callee : Expr} {target : BoundExpr} {arguments : List BoundExpr}
    (h : CallRule ctx source callee target arguments b ds) (htarget : target.Settled ctx.symbols) :
    b.Settled ctx.symbols := by
  cases h with
  | faulty => exact (bad_failsUntyped _ _).settled
  | call _ f hf harity =>
      refine ⟨fun _ _ => BoundExpr.noConfusion, fun id hfaulty _ => .inr ?_⟩
      rw [BoundExpr.hasAnyErrors, BoundExpr.anyHasErrors_eq_any, List.any_eq_true] at hfaulty
      exact .call source f arguments (htarget.declared _ f hf) harity hfaulty
  | arity => exact (bad_failsUntyped _ _).settled
  | notInvocable => exact (bad_failsUntyped _ _).settled

/-- In source text, what has a type in spite of a mistake is a creation or a call with a mistake in
an argument. -/
theorem Binds.settled {r : Option Receiver} {e : Expr} {s s' : Store} {b : BoundExpr}
    {ds : List Diagnostic} (h : Binds ctx r e s b s' ds) (he : e.BindsFirst) :
    b.Settled ctx.symbols := by
  match h with
  | .name _ _ _ _ _ hrule => exact hrule.settled
  | .staticAccess _ _ _ _ _ _ _ _ _ hrule => exact hrule.failsUntyped.settled
  | .instanceAccess _ _ _ _ _ _ _ _ _ _ _ _ hrule => exact hrule.failsUntyped.settled
  | .staticPath _ _ _ _ _ _ _ _ _ hrule => exact hrule.failsUntyped.settled
  | .unknownOwner .. => exact (bad_failsUntyped _ _).settled
  | .longPath .. => exact (bad_failsUntyped _ _).settled
  | .faultyTarget .. => exact (bad_failsUntyped _ _).settled
  | .badReceiver .. => exact (bad_failsUntyped _ _).settled
  | .conditionalAccess _ p target access _ _ _ _ _ _ _ _ _ _ _ hclean _ haccess hlift =>
      have haccessed := haccess.failsUntyped (he p target access .refl)
      exact (hlift.failsUntyped hclean haccessed).settled
  | .memberBinding _ _ _ _ _ _ hrule => exact hrule.failsUntyped.settled
  | .invocation _ _ _ _ _ _ _ _ _ _ _ _ _ hcallee _ hrule =>
      exact hrule.settled (hcallee.settled (he.part (by simp [Expr.parts])))
  | .literal _ _ _ _ _ _ hrule => exact hrule.failsUntyped.settled
  | .binary _ _ _ _ _ _ _ _ _ _ _ _ _ _ _ _ _ hrule => exact hrule.failsUntyped.settled
  | .parenthesized _ _ _ _ _ _ _ hinner => exact hinner.settled (he.part (by simp [Expr.parts]))
  | .creation .. => exact ⟨fun _ _ => BoundExpr.noConfusion, fun _ _ _ => .inl rfl⟩
  | .error .. => exact (bad_failsUntyped _ _).settled

end AnonymousObjects
