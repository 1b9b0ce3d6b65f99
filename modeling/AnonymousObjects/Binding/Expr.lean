import AnonymousObjects.Binding.Creation

/-!
# Binding expressions

`Context.bindExpr` binds an expression: parts from left to right, then the form itself. Inside the
second part of a conditional access, member bindings refer to its target, and those outside of any
are a fault.
-/

namespace AnonymousObjects.Context

open Syntax (Expr Initializer Name)

/-- The single name that an expression is. -/
def simpleName? : Expr → Option Name
  | .identifier name => some name
  | _ => none

/-- A path whose left part names no type. -/
def rejectPath (ctx : Context) (source left : Expr) (inner : BoundExpr) : Action BoundExpr :=
  if inner.hasAnyErrors then pure (.bad source [inner])
  else reject source [inner] (.unknownType left.toText) (ctx.span left.position)

/-- A conditional access to a target without a type that admits null. -/
def rejectReceiver (ctx : Context) (source : Expr) (target : BoundExpr) : Action BoundExpr := do
  let shown ← describe target
  reject source [target] (.badConditionalReceiver shown) (ctx.span source.position)

mutual

/-- Binds an expression for its value. -/
def bindExpr (ctx : Context) (receiver : Option Receiver) : Expr → Action BoundExpr
  | .identifier name => ctx.bindName name
  | .memberAccess p target name => do
    let source := Expr.memberAccess p target name
    let t ← Action.table
    match ctx.typeNamed t target with
    | some owner => ctx.bindStaticField source owner name
    | none =>
      let target ← bindExpr ctx receiver target
      ctx.bindInstanceField source target name
  | .qualifiedName p left right => do
    let source := Expr.qualifiedName p left right
    let t ← Action.table
    match ctx.typeNamed t left, simpleName? left with
    | some owner, _ => ctx.bindStaticField source owner right
    | none, some name =>
      reject source [] (.unknownType (Text.ofString name.text)) (ctx.span name.position)
    | none, none =>
      let inner ← bindExpr ctx receiver left
      ctx.rejectPath source left inner
  | .conditionalAccess p target access => do
    let source := Expr.conditionalAccess p target access
    let bound ← bindExpr ctx receiver target
    if bound.hasAnyErrors then pure (.bad source [bound])
    else
      match ← receiverType? bound with
      | none => ctx.rejectReceiver source bound
      | some type =>
        let access ← bindExpr ctx (some ⟨target, type⟩) access
        let lifted ← lift access.type?
        pure (.conditionalAccess source bound access lifted)
  | .memberBinding p name =>
    match receiver with
    | none => Action.stop .strayMemberBinding
    | some r => ctx.bindInstanceField (.memberBinding p name) r.node name
  | .invocation p callee arguments => do
    let target ← bindExpr ctx receiver callee
    let bound ← bindExprs ctx receiver arguments
    ctx.bindCall (.invocation p callee arguments) callee target bound
  | .literal p l => bindLiteral (.literal p l) l
  | .binary p op left right => do
    let boundLeft ← bindExpr ctx receiver left
    let boundRight ← bindExpr ctx receiver right
    ctx.bindBinary (.binary p op left right) op boundLeft boundRight
  | .parenthesized _ inner => bindExpr ctx receiver inner
  | .creation p new initializers => do
    let resolved ← bindInitializers ctx receiver 0 [] initializers
    bindFields ctx (.creation p new initializers) new resolved
  | .error p text => pure (.bad (.error p text) [])

/-- Binds expressions in order. -/
def bindExprs (ctx : Context) (receiver : Option Receiver) : List Expr → Action (List BoundExpr)
  | [] => pure []
  | e :: es => do
    let b ← bindExpr ctx receiver e
    let bs ← bindExprs ctx receiver es
    pure (b :: bs)

/-- Binds initializers in order, from an index on, where some names are in use already. -/
def bindInitializers (ctx : Context) (receiver : Option Receiver) :
    Nat → List String → List (Initializer Expr) → Action (List ResolvedField)
  | _, _, [] => pure []
  | index, used, ⟨place, label, e⟩ :: rest => do
    let init : Initializer Expr := ⟨place, label, e⟩
    let (name, nameless) := ResolvedField.shapeOf init
    if nameless then Action.report .invalidMemberDeclarator (ctx.span e.position)
    let value ← bindExpr ctx receiver e
    let resolved ← ResolvedField.resolve ctx index used init name nameless value
    let others ← bindInitializers ctx receiver (index + 1) (used ++ resolved.name.toList) rest
    pure (resolved :: others)

end

end AnonymousObjects.Context
