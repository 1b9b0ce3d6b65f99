import AnonymousObjects.Source.Position
import AnonymousObjects.Text.CodePoint

/-!
# Expressions

The trees that expressions are read into. Hosts may build trees of their own, so a node need not
have a position, a literal's value need not suit its kind, and an identifier may be malformed or
empty.
-/

namespace AnonymousObjects.Syntax

/-- An occurrence of an identifier. -/
structure Name where
  text : String
  position : Option Position
deriving DecidableEq, Repr

/-- The kinds of literals. Hosts may have kinds of their own. -/
inductive LiteralKind where
  | int
  | string
  | bool
  | null
  | other (name : String)
deriving DecidableEq, Repr

/-- The value of a literal. -/
inductive LiteralValue where
  | none
  | int (n : Int)
  | bool (b : Bool)
  | text (t : Text)
deriving DecidableEq, Repr

/-- A literal: its kind and its value. -/
structure Literal where
  kind : LiteralKind
  value : LiteralValue
deriving DecidableEq, Repr

/-- One declarator of an anonymous object creation: an expression, with the name of the member in
front or without. -/
structure Initializer (ε : Type) where
  position : Option Position
  label : Option Name
  value : ε

/-- Expressions. A conditional access holds its target and what is done when the target is not
null; there a member binding stands for a member of the target, so that `a?.b.c` is the conditional
access of `a` whose second part is the access to `c` in the binding of `b`. -/
inductive Expr where
  | identifier (name : Name)
  | memberAccess (position : Option Position) (target : Expr) (name : Name)
  | qualifiedName (position : Option Position) (left : Expr) (right : Name)
  | conditionalAccess (position : Option Position) (target access : Expr)
  | memberBinding (position : Option Position) (name : Name)
  | invocation (position : Option Position) (callee : Expr) (arguments : List Expr)
  | literal (position : Option Position) (value : Literal)
  | binary (position : Option Position) (op : String) (left right : Expr)
  | parenthesized (position : Option Position) (inner : Expr)
  | creation (position new : Option Position) (initializers : List (Initializer Expr))
  | error (position : Option Position) (text : String)

namespace Expr

/-- Where an expression is reported. -/
def position : Expr → Option Position
  | identifier name => name.position
  | memberAccess p _ _ | qualifiedName p _ _ | conditionalAccess p _ _ | memberBinding p _
  | invocation p _ _ | literal p _ | binary p _ _ _ | parenthesized p _ | creation p _ _
  | error p _ => p

/-- A tree that stands for unreadable source text. -/
def isError : Expr → Bool
  | error _ _ => true
  | _ => false

/-- A name or a path of names. -/
def isPath : Expr → Bool
  | identifier _ | qualifiedName _ _ _ => true
  | _ => false

/-- A postfix operation, applied to an expression. After a conditional access it belongs to what is
done when the target is not null. -/
def extend (operation : Expr → Expr) : Expr → Expr
  | conditionalAccess p target access => conditionalAccess p target (extend operation access)
  | e => operation e

end Expr

end AnonymousObjects.Syntax
