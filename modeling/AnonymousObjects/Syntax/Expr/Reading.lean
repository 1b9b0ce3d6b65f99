import AnonymousObjects.Syntax.Literal

/-!
# Reading expressions

An expression is read token by token. A `Reading` is an expression of which some tokens have been
read; `shift` adds the next one and refuses a token that no expression has at this place. The
reading holds a stack of what has been opened and not closed, so every token is looked at once and
nothing is read ahead.
-/

namespace AnonymousObjects.Syntax

variable [Text.CharacterNames]

namespace Reading

/-- A bracket that is open: a parenthesis, the arguments of a call, or the initializers of a
creation. `left` is the sum in front of the operand that the bracket belongs to, `before` holds the
items already complete, and `label` is the name in front of the initializer being read. -/
inductive Frame where
  | paren (left : Option Expr) (start : Position)
  | argument (left : Option Expr) (callee : Expr) (before : List Expr)
  | initializer (left : Option Expr) (new : Position) (before : List (Initializer Expr))
      (label : Option Name)

/-- What comes next: an operand; an argument or the end of the arguments; an initializer or the end
of the initializers; the brace after `new`; the name after an operator; or, after a complete
operand, whatever may follow it. -/
inductive Point where
  | operand
  | firstArgument
  | initializer
  | new (start : Position)
  | dot (target : Expr)
  | questionDot (target : Expr)
  | colons (path : Expr)
  | complete (operand : Expr)

end Reading

/-- An expression of which some tokens have been read: the open brackets, the innermost first, the
sum so far in front of the current operand, and the place reached. -/
structure Reading where
  frames : List Reading.Frame
  left : Option Expr
  point : Reading.Point

namespace Reading

/-- Before the first token. -/
def start : Reading :=
  ⟨[], none, .operand⟩

/-- The name that a token is. -/
def nameOf (t : Token) : Name :=
  ⟨t.text, some t.position⟩

/-- A sum and one more operand. -/
def sum : Option Expr → Expr → Expr
  | none, operand => operand
  | some left, operand => .binary left.position "+" left operand

/-- An initializer starts with its label, or else with its expression. -/
def initializerOf (label : Option Name) (value : Expr) : Initializer Expr :=
  match label with
  | some name => ⟨name.position, label, value⟩
  | none => ⟨value.position, none, value⟩

/-- Access to a member of an expression. -/
def access (name : Name) (target : Expr) : Expr :=
  .memberAccess target.position target name

/-- Conditional access to a member of an expression. -/
def conditional (name : Name) (target : Expr) : Expr :=
  .conditionalAccess target.position target (.memberBinding name.position name)

/-- A call of an expression. -/
def call (arguments : List Expr) (callee : Expr) : Expr :=
  .invocation callee.position callee arguments

/-- A creation that starts at its keyword. -/
def creation (new : Position) (initializers : List (Initializer Expr)) : Expr :=
  .creation (some new) (some new) initializers

/-- The first token of an operand. -/
def openOperand (r : Reading) (t : Token) : Option Reading :=
  match t.kind, t.literal? with
  | .name, _ => some { r with point := .complete (.identifier (nameOf t)) }
  | .mark .openParen, _ => some ⟨.paren r.left t.position :: r.frames, none, .operand⟩
  | .keyword .new, _ => some { r with point := .new t.position }
  | _, some literal => some { r with point := .complete (.literal (some t.position) literal) }
  | _, none => none

/-- A token after a complete operand. A path goes on with `::`, and a single name that is the whole
of an unlabelled initializer so far becomes its label before `=`. -/
def afterOperand (r : Reading) (operand : Expr) (m : Mark) : Option Reading :=
  match m, r.frames with
  | .plus, _ => some ⟨r.frames, some (sum r.left operand), .operand⟩
  | .dot, _ => some { r with point := .dot operand }
  | .questionDot, _ => some { r with point := .questionDot operand }
  | .colons, _ => if operand.isPath then some { r with point := .colons operand } else none
  | .openParen, _ => some ⟨.argument r.left operand [] :: r.frames, none, .firstArgument⟩
  | .equal, .initializer left new before none :: outer =>
    match r.left, operand with
    | none, .identifier name =>
      some ⟨.initializer left new before (some name) :: outer, none, .operand⟩
    | _, _ => none
  | .closeParen, .paren left start :: outer =>
    some ⟨outer, left, .complete (.parenthesized (some start) (sum r.left operand))⟩
  | .closeParen, .argument left callee before :: outer =>
    some ⟨outer, left, .complete (callee.extend (call (before ++ [sum r.left operand])))⟩
  | .comma, .argument left callee before :: outer =>
    some ⟨.argument left callee (before ++ [sum r.left operand]) :: outer, none, .operand⟩
  | .comma, .initializer left new before label :: outer =>
    let items := before ++ [initializerOf label (sum r.left operand)]
    some ⟨.initializer left new items none :: outer, none, .initializer⟩
  | .closeBrace, .initializer left new before label :: outer =>
    some ⟨outer, left,
      .complete (creation new (before ++ [initializerOf label (sum r.left operand)]))⟩
  | _, _ => none

/-- The reading with one more token, unless none has that token here. -/
def shift (r : Reading) (t : Token) : Option Reading :=
  match r.point, t.kind with
  | .operand, _ => r.openOperand t
  | .firstArgument, .mark .closeParen =>
    match r.frames with
    | .argument left callee before :: outer =>
      some ⟨outer, left, .complete (callee.extend (call before))⟩
    | _ => none
  | .firstArgument, _ => r.openOperand t
  | .initializer, .mark .closeBrace =>
    match r.frames with
    | .initializer left new before _ :: outer =>
      some ⟨outer, left, .complete (creation new before)⟩
    | _ => none
  | .initializer, _ => r.openOperand t
  | .new start, .mark .openBrace =>
    some ⟨.initializer r.left start [] none :: r.frames, none, .initializer⟩
  | .dot target, .name => some { r with point := .complete (target.extend (access (nameOf t))) }
  | .questionDot target, .name =>
    some { r with point := .complete (target.extend (conditional (nameOf t))) }
  | .colons path, .name =>
    some { r with point := .complete (.qualifiedName path.position path (nameOf t)) }
  | .complete operand, .mark m => r.afterOperand operand m
  | _, _ => none

/-- The expression read, if it can end here. -/
def value? (r : Reading) : Option Expr :=
  match r.frames, r.point with
  | [], .complete operand => some (sum r.left operand)
  | _, _ => none

end Reading

end AnonymousObjects.Syntax
