import AnonymousObjects.Binding.Action
import AnonymousObjects.Binding.Tree
import AnonymousObjects.Syntax.Expr.MemberName

/-!
# Rules of binding

What each form of expression is bound to, given the trees of its parts. A mistake is reported where
it is made: a form whose parts have mistakes reports none of its own.
-/

namespace AnonymousObjects

open Syntax (Expr Literal LiteralKind Name)

/-- What expressions are bound against: the declared symbols, the member around the expression,
whether nullable references are switched on or off, and the file. -/
structure Context where
  symbols : SymbolTable
  member : Option ContainingMember := none
  nullable : Option Bool := none
  file : Option String := none

/-- The value that member bindings refer to: the target of the conditional access around them, known
not to be null there. -/
structure Receiver where
  source : Expr
  type : TypeId

/-- The node that stands for a receiver. -/
def Receiver.node (r : Receiver) : BoundExpr :=
  .conditionalReceiver r.source r.type

namespace Context

/-- The span of a position in the file at hand. -/
def span (ctx : Context) (p : Option Position) : Span :=
  .ofPosition ctx.file p

/-- The type that an expression names: that of a single name, unless a global or function has it. -/
def typeNamed (ctx : Context) (t : TypeTable) : Expr → Option TypeId
  | .identifier name => if ctx.symbols.isDeclared name.text then none else t.lookup name.text
  | _ => none

/-- How diagnostics describe a value: by its type, if it has one. -/
def describe (b : BoundExpr) : Action Text :=
  match b.type? with
  | none => pure b.display
  | some id => do
    let name ← Action.ask (·.display id)
    pure (Text.ofString name)

/-- A node for an expression that could not be bound, after a report. -/
def reject (source : Expr) (parts : List BoundExpr) (p : Problem) (span : Span) :
    Action BoundExpr := do
  Action.report p span
  pure (.bad source parts)

/-- A name stands for a global or else a function. -/
def bindName (ctx : Context) (name : Name) : Action BoundExpr :=
  let source := Expr.identifier name
  match ctx.symbols.global? name.text, ctx.symbols.function? name.text with
  | some g, _ => pure (.global source name.text g.type)
  | none, some f => pure (.methodGroup source f)
  | none, none => do
    let t ← Action.table
    match t.lookup name.text with
    | some _ => reject source [] (.notAValue name.text) (ctx.span name.position)
    | none => reject source [] (.undefinedName name.text) (ctx.span name.position)

/-- Access to a static field of a type. -/
def bindStaticField (ctx : Context) (source : Expr) (owner : TypeId) (name : Name) :
    Action BoundExpr := do
  let t ← Action.table
  match t.findField owner name.text true with
  | some field => pure (.staticField source field)
  | none =>
    let shown ← Action.ask (·.display owner)
    reject source [] (.noSuchMember (Text.ofString shown) name.text) (ctx.span name.position)

/-- Access to a field of a value. -/
def bindInstanceField (ctx : Context) (source : Expr) (receiver : BoundExpr) (name : Name) :
    Action BoundExpr :=
  if receiver.hasAnyErrors then pure (.bad source [receiver])
  else do
    let t ← Action.table
    match receiver.type?.bind (t.findField · name.text false) with
    | some field => pure (.instanceField source receiver field)
    | none =>
      let shown ← describe receiver
      reject source [receiver] (.noSuchMember shown name.text) (ctx.span name.position)

/-- The type of the value that member bindings refer to, if the target of a conditional access has a
type that admits null: the type itself, or what it is the nullable type of. -/
def receiverType? (b : BoundExpr) : Action (Option TypeId) :=
  match b.type? with
  | none => pure none
  | some id => do
    let shape ← Action.ask (·.shape id)
    match shape with
    | .nullable inner => pure (some inner)
    | .reference | .anonymous _ => pure (some id)
    | _ => pure none

/-- The type of a conditional access is nullable, unless nothing is accessed that has a value. -/
def lift : Option TypeId → Action (Option TypeId)
  | none => pure none
  | some id => do
    let shape ← Action.ask (·.shape id)
    if shape.isVoid then pure (some id)
    else
      let lifted ← Action.build (·.nullableOf id)
      pure (some lifted)

/-- A call needs a function and as many arguments as it has parameters. -/
def bindCall (ctx : Context) (source callee : Expr) (target : BoundExpr)
    (arguments : List BoundExpr) : Action BoundExpr :=
  if target.hasAnyErrors then pure (.bad source (target :: arguments))
  else
    match target with
    | .methodGroup _ f =>
      if arguments.length = f.params.length then pure (.call source f arguments)
      else
        reject source arguments (.badArity f.name f.params.length arguments.length)
          (ctx.span source.position)
    | _ =>
      reject source (target :: arguments) (.notInvocable callee.toText) (ctx.span source.position)

/-- A literal has the builtin type of its kind, if there is one. -/
def bindLiteral (source : Expr) (l : Literal) : Action BoundExpr :=
  match l.kind with
  | .int => do
    let id ← Action.make (·.ensure .int)
    pure (.literal source (some id) l)
  | .string => do
    let id ← Action.make (·.ensure .string)
    pure (.literal source (some id) l)
  | .bool => do
    let id ← Action.make (·.ensure .bool)
    pure (.literal source (some id) l)
  | .null | .other _ => pure (.literal source none l)

/-- Any value can be part of a string, except pointers and the value of a function without one. Of
what has no type, only literals can. -/
def joinsStrings (b : BoundExpr) : Action Bool :=
  match b.type?, b with
  | none, .literal _ _ _ => pure true
  | none, _ => pure false
  | some id, _ => do
    let shape ← Action.ask (·.shape id)
    pure !(shape.isVoid || shape.isUnsafe)

/-- The type of a sum: of two integers, or of a string and what can be part of one. -/
def sumType? (left right : BoundExpr) : Action (Option TypeId) := do
  let int ← Action.make (·.ensure .int)
  let string ← Action.make (·.ensure .string)
  if left.type? = some int ∧ right.type? = some int then pure (some int)
  else if left.type? = some string ∨ right.type? = some string then
    if ← joinsStrings left then
      if ← joinsStrings right then pure (some string) else pure none
    else pure none
  else pure none

/-- A sum of two values. -/
def bindBinary (ctx : Context) (source : Expr) (op : String) (left right : BoundExpr) :
    Action BoundExpr :=
  if left.hasAnyErrors || right.hasAnyErrors then pure (.bad source [left, right])
  else do
    match ← sumType? left right with
    | some id => pure (.binary source op left right id)
    | none =>
      let shownLeft ← describe left
      let shownRight ← describe right
      reject source [left, right] (.badBinaryOperands op shownLeft shownRight)
        (ctx.span source.position)

end Context

end AnonymousObjects
