import AnonymousObjects.Binding.Context

/-!
# Creations

A creation makes a value of an anonymous type with a field for each initializer. Field and argument
`i` belong to initializer `i` even where the initializer is mistaken: a field without a usable name
is named by its position, and one without a usable type has an error type.
-/

namespace AnonymousObjects

open Syntax (Expr Initializer Name)

/-- A field of a creation: as it is asked for, its value, its name if that is usable, and whether
something is wrong with it apart from the value. -/
structure ResolvedField where
  field : AnonymousField
  value : BoundExpr
  label : Option Name
  name : Option String
  faulty : Bool

namespace ResolvedField

/-- The name and the shape of an initializer, before its value is bound: the name that it has, and
whether its expression lends none though there is no label. -/
def shapeOf (init : Initializer Expr) : Option Name × Bool :=
  match init.label with
  | some label => (some label, false)
  | none => (init.value.lentName, !init.value.lendsName)

/-- The type that a field gets from its value. Values without a type get an error type and so does
the value of a function without one; pointers and types restricted to the stack are kept. All of
them are reported, but not for a value that has mistakes already. -/
def typeOf (value : BoundExpr) (span : Span) : Action (TypeId × Bool) :=
  match value.type? with
  | none => do
    let id ← Action.make (·.ensureError "error")
    if value.hasAnyErrors then pure (id, false)
    else
      Action.report (.badPropertyValueType value.display) span
      pure (id, true)
  | some id =>
    if value.hasAnyErrors then pure (id, false)
    else do
      let shape ← Action.ask (·.shape id)
      if shape.isVoid then
        let shown ← Action.ask (·.display id)
        let error ← Action.make (·.ensureError "void")
        Action.report (.badPropertyValueType (Text.ofString shown)) span
        pure (error, true)
      else if shape.isUnsafe || shape.isRestricted then
        let shown ← Action.ask (·.display id)
        Action.report (.badPropertyValueType (Text.ofString shown)) span
        pure (id, true)
      else pure (id, false)

/-- The name that an initializer's field keeps, and whether it is a mistake: the name is malformed
or missing, or in use already, which is reported. -/
def keptName (ctx : Context) (used : List String) (init : Initializer Expr) (name : Option Name) :
    Action (Option String × Bool) :=
  match name.filter (·.isIdentifier) with
  | none => pure (none, true)
  | some name =>
    if name.text ∈ used then do
      Action.report .duplicatePropertyName (ctx.span init.position)
      pure (none, true)
    else pure (some name.text, false)

/-- The field of the initializer at an index, after its value has been bound. -/
def resolve (ctx : Context) (index : Nat) (used : List String) (init : Initializer Expr)
    (name : Option Name) (nameless : Bool) (value : BoundExpr) : Action ResolvedField := do
  let (kept, badName) ← keptName ctx used init name
  let (type, badType) ← typeOf value (ctx.span init.position)
  let nullability ← Action.ask (Nullability.ofType · type ctx.nullable)
  let place :=
    match name.filter (·.isIdentifier) with
    | some name => name.position
    | none => init.position
  pure
    { field := ⟨kept.getD ("$" ++ toString index), ctx.span place, type, nullability⟩
      value := value, label := init.label, name := kept
      faulty := nameless || init.value.isError || badName || badType }

/-- The declaration of the property of a field that has a label and keeps it. -/
def declaration? (type : AnonymousType) (r : ResolvedField) : Option PropertyDeclaration := do
  let label ← r.label
  let name ← r.name
  let property ← type.propertyNamed? name
  pure ⟨label, property, r.field.type⟩

end ResolvedField

/-- The node of a creation, after its fields have been resolved. -/
def bindFields (ctx : Context) (source : Expr) (new : Option Position)
    (resolved : List ResolvedField) : Action BoundExpr := do
  let fields := resolved.map (·.field)
  let type ← Action.intern fields (ctx.span new)
  let allowed := allowsCreation ctx.member
  if !allowed then
    Action.note (.denied ctx.member)
    Action.report .anonymousTypeNotAvailable (ctx.span new)
  pure (.creation source new type fields (resolved.map (·.value))
    (resolved.filterMap (·.declaration? type)) (resolved.any (·.faulty) || !allowed))

end AnonymousObjects
