import AnonymousObjects.Syntax.Expr

/-!
# Member bindings without a target

A member binding stands for a member of the target of the conditional access whose second part it is
in. `hasStray` tells whether an expression has one that is in no such part.
-/

namespace AnonymousObjects.Syntax.Expr

mutual

/-- A member binding in the expression, outside of the second parts of conditional accesses. -/
def hasStray : Expr → Bool
  | memberBinding _ _ => true
  | identifier _ | literal _ _ | error _ _ => false
  | memberAccess _ target _ => hasStray target
  | qualifiedName _ left _ => hasStray left
  | conditionalAccess _ target _ => hasStray target
  | invocation _ callee arguments => hasStray callee || anyHasStray arguments
  | binary _ _ left right => hasStray left || hasStray right
  | parenthesized _ inner => hasStray inner
  | creation _ _ initializers => initializerHasStray initializers

/-- Such a member binding in one of several expressions. -/
def anyHasStray : List Expr → Bool
  | [] => false
  | e :: es => hasStray e || anyHasStray es

/-- Such a member binding in one of several initializers. -/
def initializerHasStray : List (Initializer Expr) → Bool
  | [] => false
  | ⟨_, _, value⟩ :: rest => hasStray value || initializerHasStray rest

end

end AnonymousObjects.Syntax.Expr
