import AnonymousObjects.Proofs.Syntax.Scoping
import Mathlib.Logic.Relation

/-!
# The parts of an expression

`parts` lists the expressions directly inside an expression, and `Within` is any number of such
steps. The second part of a conditional access is apart from the others: member bindings in it have
a target. `hasStray_iff` says that an expression has a member binding without a target exactly when
steps to other parts lead to one.
-/

namespace AnonymousObjects.Syntax.Expr

open Relation (ReflTransGen)

/-- The parts of an expression in which member bindings mean what they mean around it. -/
@[simp] def openParts : Expr → List Expr
  | identifier _ | memberBinding _ _ | literal _ _ | error _ _ => []
  | memberAccess _ target _ | conditionalAccess _ target _ => [target]
  | qualifiedName _ left _ => [left]
  | invocation _ callee arguments => callee :: arguments
  | binary _ _ left right => [left, right]
  | parenthesized _ inner => [inner]
  | creation _ _ initializers => initializers.map (·.value)

/-- What is done by a conditional access when its target is not null. -/
@[simp] def whenNotNull : Expr → List Expr
  | conditionalAccess _ _ access => [access]
  | _ => []

/-- The expressions directly inside an expression. -/
def parts (e : Expr) : List Expr :=
  e.openParts ++ e.whenNotNull

/-- `d.Within e` says that `d` is `e` or stands in it, at any depth. -/
def Within (d e : Expr) : Prop :=
  ReflTransGen (fun d e => d ∈ e.parts) d e

/-- `d.Exposed e` says that `d` is `e` or stands in it, outside of the second part of any
conditional access in `e`. -/
def Exposed (d e : Expr) : Prop :=
  ReflTransGen (fun d e => d ∈ e.openParts) d e

/-- A member binding. -/
def isMemberBinding : Expr → Bool
  | memberBinding _ _ => true
  | _ => false

variable {d e : Expr}

/-- Parts are smaller than the whole. -/
theorem sizeOf_lt_of_mem_parts (h : d ∈ e.parts) : sizeOf d < sizeOf e := by
  cases e with
  | identifier | memberBinding | literal | error => simp [parts] at h
  | memberAccess p target name =>
      obtain rfl : d = target := by simpa [parts] using h
      rw [memberAccess.sizeOf_spec]
      omega
  | qualifiedName p left right =>
      obtain rfl : d = left := by simpa [parts] using h
      rw [qualifiedName.sizeOf_spec]
      omega
  | parenthesized p inner =>
      obtain rfl : d = inner := by simpa [parts] using h
      rw [parenthesized.sizeOf_spec]
      omega
  | conditionalAccess p target access =>
      obtain rfl | rfl : d = target ∨ d = access := by simpa [parts] using h
      all_goals
        rw [conditionalAccess.sizeOf_spec]
        omega
  | binary p op left right =>
      obtain rfl | rfl : d = left ∨ d = right := by simpa [parts] using h
      all_goals
        rw [binary.sizeOf_spec]
        omega
  | invocation p callee arguments =>
      rw [invocation.sizeOf_spec]
      obtain rfl | hmem : d = callee ∨ d ∈ arguments := by simpa [parts] using h
      · omega
      · have hlt := List.sizeOf_lt_of_mem hmem
        omega
  | creation p new initializers =>
      obtain ⟨⟨place, label, value⟩, hmem, rfl⟩ : ∃ init ∈ initializers, init.value = d := by
        simpa [parts] using h
      have hlt := List.sizeOf_lt_of_mem hmem
      rw [Initializer.mk.sizeOf_spec] at hlt
      rw [creation.sizeOf_spec]
      dsimp only
      omega

/-- What holds of an expression if it holds of its parts holds of every expression. -/
theorem induction_parts {motive : Expr → Prop}
    (step : ∀ e, (∀ d ∈ e.parts, motive d) → motive e) (e : Expr) : motive e :=
  step e fun d _ => induction_parts step d
termination_by e
decreasing_by exact sizeOf_lt_of_mem_parts ‹_›

/-- What is within an expression is the expression or is within one of its parts. -/
theorem within_iff : d.Within e ↔ d = e ∨ ∃ part ∈ e.parts, d.Within part := by
  constructor
  · intro h
    cases h with
    | refl => exact .inl rfl
    | tail hd hpart => exact .inr ⟨_, hpart, hd⟩
  · rintro (rfl | ⟨part, hpart, hd⟩)
    · exact .refl
    · exact .tail hd hpart

/-- Some expression has a stray member binding where one of them has. -/
theorem anyHasStray_eq (es : List Expr) : anyHasStray es = es.any hasStray := by
  induction es with
  | nil => rfl
  | cons e es ih => simp [anyHasStray, ih]

/-- Some initializer has a stray member binding where one of the values has. -/
theorem initializerHasStray_eq (inits : List (Initializer Expr)) :
    initializerHasStray inits = (inits.map (·.value)).any hasStray := by
  induction inits with
  | nil => rfl
  | cons init inits ih => simp [initializerHasStray, ih]

/-- Member bindings without a target are the expression itself or in its open parts. -/
theorem hasStray_eq (e : Expr) :
    e.hasStray = (e.isMemberBinding || e.openParts.any hasStray) := by
  cases e <;>
    simp [hasStray, isMemberBinding, anyHasStray_eq, initializerHasStray_eq]

/-- An expression has a member binding without a target exactly when one stands in it outside of the
second parts of conditional accesses. -/
theorem hasStray_iff : e.hasStray = true ↔ ∃ p name, (memberBinding p name).Exposed e := by
  constructor
  · induction e using induction_parts with
    | step e ih =>
      intro h
      rw [hasStray_eq, Bool.or_eq_true, List.any_eq_true] at h
      rcases h with h | ⟨part, hpart, h⟩
      · cases e <;> cases h
        exact ⟨_, _, .refl⟩
      · obtain ⟨p, name, hexposed⟩ := ih part (List.mem_append_left _ hpart) h
        exact ⟨p, name, hexposed.tail hpart⟩
  · rintro ⟨p, name, hexposed⟩
    induction hexposed with
    | refl => rfl
    | tail _ hpart ih =>
      rw [hasStray_eq, Bool.or_eq_true, List.any_eq_true]
      exact .inr ⟨_, hpart, ih⟩

end AnonymousObjects.Syntax.Expr
