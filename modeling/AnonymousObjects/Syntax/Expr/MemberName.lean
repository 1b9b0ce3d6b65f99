import AnonymousObjects.Syntax.Expr
import AnonymousObjects.Text.Identifier

/-!
# Names that expressions lend to members

A declarator without a label takes the member's name from its expression: a simple name, the last
name of a path or of a member access, or the name at the end of a conditional access. Calls,
literals, operators, parentheses and creations lend no name.
-/

namespace AnonymousObjects.Syntax

/-- A name whose text is an identifier. -/
def Name.isIdentifier (name : Name) : Bool :=
  Text.isIdentifier name.text.toList

namespace Expr

/-- An expression of a shape that lends a name to a member. -/
def lendsName : Expr → Bool
  | identifier _ | memberAccess _ _ _ | qualifiedName _ _ _ => true
  | conditionalAccess _ _ (memberBinding _ _) => true
  | conditionalAccess _ _ access => lendsName access
  | _ => false

/-- The name that an expression lends to a member. Member bindings have one too, since a conditional
access takes its name from them. -/
def lentName : Expr → Option Name
  | identifier name | memberAccess _ _ name | memberBinding _ name | qualifiedName _ _ name =>
    some name
  | conditionalAccess _ _ access => lentName access
  | _ => none

end Expr

end AnonymousObjects.Syntax
