import AnonymousObjects.Compilation
import AnonymousObjects.Proofs.Binding.Runs

/-!
# The stores that binding leads to

Whatever is bound, and also where binding stops at a fault, the store is worked on through the
operations of `Store.Step` only. `bindExpr_moves` says so of an expression and `bindMembers_moves`
of the members of a program, so the store of a compilation is `Reachable` after every run.
-/

namespace AnonymousObjects

open AnonymousObjects.Action
open Syntax (Expr Initializer Literal MemberDecl Name)

namespace Context

variable {ctx : Context}

/-- Describing a node moves along the steps of a store. -/
theorem describe_moves (b : BoundExpr) : (describe b).Moves := by
  unfold describe
  split
  · exact moves_pure
  · exact moves_bind moves_ask fun _ => moves_pure

/-- A rejection moves along the steps of a store. -/
@[simp] theorem reject_moves (source : Expr) (parts : List BoundExpr) (p : Problem) (span : Span) :
    (reject source parts p span).Moves :=
  moves_bind moves_report fun _ => moves_pure

/-- Binding a name moves along the steps of a store. -/
theorem bindName_moves (name : Name) : (ctx.bindName name).Moves := by
  unfold bindName
  split
  · exact moves_pure
  · exact moves_pure
  · refine moves_bind moves_table fun t => ?_
    split <;> exact reject_moves _ _ _ _

/-- Binding a static field moves along the steps of a store. -/
theorem bindStaticField_moves (source : Expr) (owner : TypeId) (name : Name) :
    (ctx.bindStaticField source owner name).Moves := by
  refine moves_bind moves_table fun t => ?_
  split
  · exact moves_pure
  · exact moves_bind moves_ask fun _ => reject_moves _ _ _ _

/-- Binding an instance field moves along the steps of a store. -/
theorem bindInstanceField_moves (source : Expr) (receiver : BoundExpr) (name : Name) :
    (ctx.bindInstanceField source receiver name).Moves := by
  unfold bindInstanceField
  split
  · exact moves_pure
  · refine moves_bind moves_table fun t => ?_
    split
    · exact moves_pure
    · exact moves_bind (describe_moves receiver) fun _ => reject_moves _ _ _ _

/-- Rejecting a path moves along the steps of a store. -/
theorem rejectPath_moves (source left : Expr) (inner : BoundExpr) :
    (ctx.rejectPath source left inner).Moves := by
  unfold rejectPath
  split
  · exact moves_pure
  · exact reject_moves _ _ _ _

/-- Asking for the type that member bindings refer to moves along the steps of a store. -/
theorem receiverType?_moves (b : BoundExpr) : (receiverType? b).Moves := by
  unfold receiverType?
  split
  · exact moves_pure
  · refine moves_bind moves_ask fun shape => ?_
    split <;> exact moves_pure

/-- Rejecting a receiver moves along the steps of a store. -/
theorem rejectReceiver_moves (source : Expr) (target : BoundExpr) :
    (ctx.rejectReceiver source target).Moves :=
  moves_bind (describe_moves target) fun _ => reject_moves _ _ _ _

/-- Lifting a type moves along the steps of a store. -/
theorem lift_moves (type : Option TypeId) : (lift type).Moves := by
  cases type with
  | none => exact moves_pure
  | some id =>
    refine moves_bind moves_ask fun shape => ?_
    split
    · exact moves_pure
    · exact moves_bind moves_nullableOf fun _ => moves_pure

/-- Binding a call moves along the steps of a store. -/
theorem bindCall_moves (source callee : Expr) (target : BoundExpr) (arguments : List BoundExpr) :
    (ctx.bindCall source callee target arguments).Moves := by
  unfold bindCall
  split
  · exact moves_pure
  · split
    · split
      · exact moves_pure
      · exact reject_moves _ _ _ _
    · exact reject_moves _ _ _ _

/-- Binding a literal moves along the steps of a store. -/
theorem bindLiteral_moves (source : Expr) (l : Literal) : (bindLiteral source l).Moves := by
  unfold bindLiteral
  split
  case h_4 | h_5 => exact moves_pure
  all_goals exact moves_bind moves_ensure fun _ => moves_pure

/-- Asking whether a node can be part of a string moves along the steps of a store. -/
theorem joinsStrings_moves (b : BoundExpr) : (joinsStrings b).Moves := by
  unfold joinsStrings
  split
  · exact moves_pure
  · exact moves_pure
  · exact moves_bind moves_ask fun _ => moves_pure

/-- Asking for the type of a sum moves along the steps of a store. -/
theorem sumType?_moves (left right : BoundExpr) : (sumType? left right).Moves := by
  refine moves_bind moves_ensure fun int => moves_bind moves_ensure fun string => ?_
  split
  · exact moves_pure
  · split
    · refine moves_bind (joinsStrings_moves left) fun joins => ?_
      split
      · refine moves_bind (joinsStrings_moves right) fun joins => ?_
        split <;> exact moves_pure
      · exact moves_pure
    · exact moves_pure

/-- Binding a binary node moves along the steps of a store. -/
theorem bindBinary_moves (source : Expr) (op : String) (left right : BoundExpr) :
    (ctx.bindBinary source op left right).Moves := by
  unfold bindBinary
  split
  · exact moves_pure
  · refine moves_bind (sumType?_moves left right) fun type => ?_
    cases type with
    | some id => exact moves_pure
    | none =>
      exact moves_bind (describe_moves left) fun _ =>
        moves_bind (describe_moves right) fun _ => reject_moves _ _ _ _

/-- Asking for the type of a field moves along the steps of a store. -/
theorem typeOf_moves (value : BoundExpr) (span : Span) :
    (ResolvedField.typeOf value span).Moves := by
  unfold ResolvedField.typeOf
  split
  · refine moves_bind moves_ensureError fun id => ?_
    split
    · exact moves_pure
    · exact moves_bind moves_report fun _ => moves_pure
  · split
    · exact moves_pure
    · refine moves_bind moves_ask fun shape => ?_
      split
      · exact moves_bind moves_ask fun _ => moves_bind moves_ensureError fun _ =>
          moves_bind moves_report fun _ => moves_pure
      · split
        · exact moves_bind moves_ask fun _ => moves_bind moves_report fun _ => moves_pure
        · exact moves_pure

/-- Keeping a name moves along the steps of a store. -/
theorem keptName_moves (used : List String) (init : Initializer Expr) (name : Option Name) :
    (ResolvedField.keptName ctx used init name).Moves := by
  unfold ResolvedField.keptName
  split
  · exact moves_pure
  · split
    · exact moves_bind moves_report fun _ => moves_pure
    · exact moves_pure

/-- Resolving a field moves along the steps of a store. -/
theorem resolve_moves (index : Nat) (used : List String) (init : Initializer Expr)
    (name : Option Name) (nameless : Bool) (value : BoundExpr) :
    (ResolvedField.resolve ctx index used init name nameless value).Moves :=
  moves_bind (keptName_moves used init name) fun _ => moves_bind (typeOf_moves value _) fun _ =>
    moves_bind moves_ask fun _ => moves_pure

/-- Making a creation of its fields moves along the steps of a store. -/
theorem bindFields_moves (source : Expr) (new : Option Position) (resolved : List ResolvedField) :
    (bindFields ctx source new resolved).Moves := by
  refine moves_bind moves_intern fun type => ?_
  dsimp only
  split
  · exact moves_bind moves_note fun _ => moves_bind moves_report fun _ => moves_pure
  · exact moves_pure

mutual

/-- Binding an expression works on the store through operations only. -/
theorem bindExpr_moves (r : Option Receiver) (e : Expr) : (ctx.bindExpr r e).Moves := by
  cases e with
  | identifier name => exact bindName_moves name
  | memberAccess p target name =>
      refine moves_bind moves_table fun t => ?_
      split
      · exact bindStaticField_moves _ _ name
      · exact moves_bind (bindExpr_moves r target) fun _ => bindInstanceField_moves _ _ name
  | qualifiedName p left right =>
      refine moves_bind moves_table fun t => ?_
      split
      · exact bindStaticField_moves _ _ right
      · exact reject_moves _ _ _ _
      · exact moves_bind (bindExpr_moves r left) fun _ => rejectPath_moves _ _ _
  | conditionalAccess p target access =>
      refine moves_bind (bindExpr_moves r target) fun bound => ?_
      split
      · exact moves_pure
      · refine moves_bind (receiverType?_moves bound) fun type => ?_
        cases type with
        | none => exact rejectReceiver_moves _ _
        | some type =>
            exact moves_bind (bindExpr_moves _ access) fun accessed =>
              moves_bind (lift_moves accessed.type?) fun _ => moves_pure
  | memberBinding p name =>
      cases r with
      | none => exact moves_stop
      | some receiver => exact bindInstanceField_moves _ _ name
  | invocation p callee arguments =>
      exact moves_bind (bindExpr_moves r callee) fun _ =>
        moves_bind (bindExprs_moves r arguments) fun _ => bindCall_moves _ _ _ _
  | literal p l => exact bindLiteral_moves _ l
  | binary p op left right =>
      exact moves_bind (bindExpr_moves r left) fun _ =>
        moves_bind (bindExpr_moves r right) fun _ => bindBinary_moves _ _ _ _
  | parenthesized p inner => exact bindExpr_moves r inner
  | creation p new initializers =>
      exact moves_bind (bindInitializers_moves r 0 [] initializers) fun _ =>
        bindFields_moves _ _ _
  | error p text => exact moves_pure

/-- Binding expressions in order works on the store through operations only. -/
theorem bindExprs_moves (r : Option Receiver) (es : List Expr) : (ctx.bindExprs r es).Moves := by
  cases es with
  | nil => exact moves_pure
  | cons e es =>
      exact moves_bind (bindExpr_moves r e) fun _ =>
        moves_bind (bindExprs_moves r es) fun _ => moves_pure

/-- Binding initializers in order works on the store through operations only. -/
theorem bindInitializers_moves (r : Option Receiver) (index : Nat) (used : List String)
    (inits : List (Initializer Expr)) : (ctx.bindInitializers r index used inits).Moves := by
  cases inits with
  | nil => exact moves_pure
  | cons init rest =>
      obtain ⟨place, label, e⟩ := init
      have htail : (do
          let value ← ctx.bindExpr r e
          let field ← ResolvedField.resolve ctx index used ⟨place, label, e⟩
            (ResolvedField.shapeOf ⟨place, label, e⟩).1
            (ResolvedField.shapeOf ⟨place, label, e⟩).2 value
          let others ← ctx.bindInitializers r (index + 1) (used ++ field.name.toList) rest
          pure (field :: others)).Moves :=
        moves_bind (bindExpr_moves r e) fun _ => moves_bind (resolve_moves _ _ _ _ _ _) fun field =>
          moves_bind (bindInitializers_moves r _ _ rest) fun _ => moves_pure
      rw [bindInitializers]
      simp only
      split
      · exact moves_bind moves_report fun _ => htail
      · exact htail

end

end Context

namespace Compilation

variable {c : Compilation}

/-- A store is reachable if operations lead to it from the store before any member is bound. -/
def Reachable (c : Compilation) (s : Store) : Prop :=
  c.store.Reaches s

/-- Binding a body moves along the steps of a store. -/
theorem bindBody_moves (ctx : Context) (exprs : List Expr) : (bindBody ctx exprs).Moves :=
  fun s => Context.bindExprs_moves none exprs s

mutual

/-- Binding a member works on the store through operations only. -/
theorem bindMember_moves (m : MemberDecl) : (c.bindMember m).Moves := by
  obtain ⟨position, kind, name, exprs, locals⟩ := m
  exact moves_bind moves_note fun _ => moves_bind (bindBody_moves _ exprs) fun _ =>
    moves_bind (bindMembers_moves locals) fun _ => moves_pure

/-- Binding members in order works on the store through operations only. -/
theorem bindMembers_moves (ms : List MemberDecl) : (c.bindMembers ms).Moves := by
  cases ms with
  | nil => exact moves_pure
  | cons m ms =>
      exact moves_bind (bindMember_moves m) fun _ =>
        moves_bind (bindMembers_moves ms) fun _ => moves_pure

end

end Compilation

end AnonymousObjects
