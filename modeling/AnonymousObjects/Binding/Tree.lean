import AnonymousObjects.Binding.Symbols
import AnonymousObjects.Syntax.Expr.Text
import AnonymousObjects.Types.Anonymous

/-!
# Bound trees

A `BoundExpr` is an expression with its types worked out. Every node keeps the expression it was
made from, and an expression that could not be bound keeps the parts that could. `hasAnyErrors`
tells whether there is a mistake in a node or below it.
-/

namespace AnonymousObjects

open Syntax (Expr Literal Name)

/-- The property that an initializer with a label declares. -/
structure PropertyDeclaration where
  label : Name
  property : Property
  type : TypeId
deriving DecidableEq, Repr

/-- A bound expression. -/
inductive BoundExpr where
  | literal (source : Expr) (type : Option TypeId) (value : Literal)
  | global (source : Expr) (name : String) (type : TypeId)
  | staticField (source : Expr) (field : FieldSchema)
  | instanceField (source : Expr) (receiver : BoundExpr) (field : FieldSchema)
  | conditionalReceiver (source : Expr) (type : TypeId)
  | conditionalAccess (source : Expr) (receiver access : BoundExpr) (type : Option TypeId)
  | methodGroup (source : Expr) (function : FunctionSymbol)
  | call (source : Expr) (function : FunctionSymbol) (arguments : List BoundExpr)
  | binary (source : Expr) (op : String) (left right : BoundExpr) (type : TypeId)
  | bad (source : Expr) (parts : List BoundExpr)
  | creation (source : Expr) (new : Option Position) (type : AnonymousType)
      (fields : List AnonymousField) (arguments : List BoundExpr)
      (declarations : List PropertyDeclaration) (faulty : Bool)

namespace BoundExpr

/-- The expression that a node was made from. -/
def source : BoundExpr → Expr
  | literal e _ _ | global e _ _ | staticField e _ | instanceField e _ _ | conditionalReceiver e _
  | conditionalAccess e _ _ _ | methodGroup e _ | call e _ _ | binary e _ _ _ _ | bad e _
  | creation e _ _ _ _ _ _ => e

/-- The type of a node. The null literal, functions and mistakes have none. -/
def type? : BoundExpr → Option TypeId
  | literal _ type _ | conditionalAccess _ _ _ type => type
  | global _ _ type | conditionalReceiver _ type | binary _ _ _ _ type => some type
  | staticField _ field | instanceField _ _ field => some field.type
  | call _ function _ => some function.result
  | creation _ _ type _ _ _ _ => some type.id
  | methodGroup _ _ | bad _ _ => none

/-- The nodes directly below a node, in order. -/
def children : BoundExpr → List BoundExpr
  | instanceField _ receiver _ => [receiver]
  | conditionalAccess _ receiver access _ => [receiver, access]
  | call _ _ arguments | creation _ _ _ _ arguments _ _ => arguments
  | binary _ _ left right _ => [left, right]
  | bad _ parts => parts
  | literal _ _ _ | global _ _ _ | staticField _ _ | conditionalReceiver _ _ | methodGroup _ _ => []

/-- The node of a creation. -/
def isCreation : BoundExpr → Bool
  | creation _ _ _ _ _ _ _ => true
  | _ => false

/-- A mistake in the node itself. -/
def hasErrors : BoundExpr → Bool
  | bad _ _ => true
  | creation _ _ _ _ _ _ faulty => faulty
  | _ => false

mutual

/-- A mistake in the node or below it. -/
def hasAnyErrors : BoundExpr → Bool
  | literal _ _ _ | global _ _ _ | staticField _ _ | conditionalReceiver _ _ | methodGroup _ _ =>
    false
  | instanceField _ receiver _ => hasAnyErrors receiver
  | conditionalAccess _ receiver access _ => hasAnyErrors receiver || hasAnyErrors access
  | call _ _ arguments => anyHasErrors arguments
  | binary _ _ left right _ => hasAnyErrors left || hasAnyErrors right
  | bad _ _ => true
  | creation _ _ _ _ arguments _ faulty => faulty || anyHasErrors arguments

/-- A mistake in one of several trees. -/
def anyHasErrors : List BoundExpr → Bool
  | [] => false
  | b :: bs => hasAnyErrors b || anyHasErrors bs

end

mutual

/-- The nodes of a tree, each before those below it. -/
def walk : BoundExpr → List BoundExpr
  | b@(literal _ _ _) | b@(global _ _ _) | b@(staticField _ _) | b@(conditionalReceiver _ _)
  | b@(methodGroup _ _) => [b]
  | b@(instanceField _ receiver _) => b :: walk receiver
  | b@(conditionalAccess _ receiver access _) => b :: (walk receiver ++ walk access)
  | b@(call _ _ arguments) => b :: walkAll arguments
  | b@(binary _ _ left right _) => b :: (walk left ++ walk right)
  | b@(bad _ parts) => b :: walkAll parts
  | b@(creation _ _ _ _ arguments _ _) => b :: walkAll arguments

/-- The nodes of several trees in turn. -/
def walkAll : List BoundExpr → List BoundExpr
  | [] => []
  | b :: bs => walk b ++ walkAll bs

end

/-- How diagnostics show an expression that has no type. -/
def display : BoundExpr → Text
  | literal source _ value =>
    if value.kind = .null then Text.ofString "<null>" else source.toText
  | methodGroup _ _ => Text.ofString "method group"
  | b => b.source.toText

/-- A mistake in one of several trees is a mistake in some of them. -/
theorem anyHasErrors_eq_any (bs : List BoundExpr) : anyHasErrors bs = bs.any hasAnyErrors := by
  induction bs with
  | nil => rfl
  | cons b bs ih => simp [anyHasErrors, ih]

/-- A mistake in a node or below it is one in the node or in a tree below it. -/
theorem hasAnyErrors_eq (b : BoundExpr) :
    b.hasAnyErrors = (b.hasErrors || b.children.any hasAnyErrors) := by
  cases b <;> simp [hasAnyErrors, hasErrors, children, anyHasErrors_eq_any]

end BoundExpr

end AnonymousObjects
