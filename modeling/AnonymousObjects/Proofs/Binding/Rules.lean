import AnonymousObjects.Binding.Expr

/-!
# Rules of binding

`Binds ctx r e s b s' ds` says that the expression `e` is bound to the node `b`, where member
bindings refer to `r`: binding starts in the store `s`, leaves `s'` and reports `ds`. There is a
rule for each form of expression, and what a form makes of the nodes of its parts has rules of its
own. `Proofs.Binding.Agreement` shows that the rules say what binding does.
-/

namespace AnonymousObjects

open Syntax (Expr Initializer Literal LiteralKind Name)

/-- The diagnostic for a mistake at a position. -/
def Context.mistake (ctx : Context) (p : Problem) (position : Option Position) : Diagnostic :=
  .ofProblem "bind" p (ctx.span position)

/-! ## Forms of expressions -/

/-- `Describes t b text` says that diagnostics describe the node `b` by `text`. -/
inductive Describes (t : TypeTable) (b : BoundExpr) : Text → Prop where
  | typed (id d) : b.type? = some id → t.get? id = some d → Describes t b (Text.ofString d.name)
  | untyped : b.type? = none → Describes t b b.display

/-- `NameRule ctx t name b ds` says that the single name `name` is bound to `b`. -/
inductive NameRule (ctx : Context) (t : TypeTable) (name : Name) :
    BoundExpr → List Diagnostic → Prop where
  | global (g) :
      ctx.symbols.global? name.text = some g →
      NameRule ctx t name (.global (.identifier name) name.text g.type) []
  | function (f) :
      ctx.symbols.global? name.text = none → ctx.symbols.function? name.text = some f →
      NameRule ctx t name (.methodGroup (.identifier name) f) []
  | typeName (id) :
      ctx.symbols.global? name.text = none → ctx.symbols.function? name.text = none →
      t.lookup name.text = some id →
      NameRule ctx t name (.bad (.identifier name) [])
        [ctx.mistake (.notAValue name.text) name.position]
  | undefined :
      ctx.symbols.global? name.text = none → ctx.symbols.function? name.text = none →
      t.lookup name.text = none →
      NameRule ctx t name (.bad (.identifier name) [])
        [ctx.mistake (.undefinedName name.text) name.position]

/-- `StaticFieldRule ctx t source owner name b ds` says that the access to the static field `name`
of the type `owner` is bound to `b`. -/
inductive StaticFieldRule (ctx : Context) (t : TypeTable) (source : Expr) (owner : TypeId)
    (name : Name) : BoundExpr → List Diagnostic → Prop where
  | found (field) :
      t.findField owner name.text true = some field →
      StaticFieldRule ctx t source owner name (.staticField source field) []
  | missing (d) :
      t.findField owner name.text true = none → t.get? owner = some d →
      StaticFieldRule ctx t source owner name (.bad source [])
        [ctx.mistake (.noSuchMember (Text.ofString d.name) name.text) name.position]

/-- `InstanceFieldRule ctx t source receiver name b ds` says that the access to the field `name` of
`receiver` is bound to `b`. -/
inductive InstanceFieldRule (ctx : Context) (t : TypeTable) (source : Expr) (receiver : BoundExpr)
    (name : Name) : BoundExpr → List Diagnostic → Prop where
  | faulty :
      receiver.hasAnyErrors = true →
      InstanceFieldRule ctx t source receiver name (.bad source [receiver]) []
  | found (id field) :
      receiver.hasAnyErrors = false → receiver.type? = some id →
      t.findField id name.text false = some field →
      InstanceFieldRule ctx t source receiver name (.instanceField source receiver field) []
  | missing (shown) :
      receiver.hasAnyErrors = false →
      receiver.type?.bind (t.findField · name.text false) = none → Describes t receiver shown →
      InstanceFieldRule ctx t source receiver name (.bad source [receiver])
        [ctx.mistake (.noSuchMember shown name.text) name.position]

/-- `PathRule ctx left inner ds` says what is reported for a path whose left part is no type
but is bound to `inner`. -/
inductive PathRule (ctx : Context) (left : Expr) (inner : BoundExpr) : List Diagnostic → Prop where
  | faulty : inner.hasAnyErrors = true → PathRule ctx left inner []
  | unknown :
      inner.hasAnyErrors = false →
      PathRule ctx left inner [ctx.mistake (.unknownType left.toText) left.position]

/-- `ReceiverRule t target type` says that member bindings refer to a value of type `type` where
`target` is accessed, if they may refer to it at all. -/
inductive ReceiverRule (t : TypeTable) (target : BoundExpr) : Option TypeId → Prop where
  | untyped : target.type? = none → ReceiverRule t target none
  | nullable (id inner name) :
      target.type? = some id → t.get? id = some ⟨.nullable inner, name⟩ →
      ReceiverRule t target (some inner)
  | reference (id d) :
      target.type? = some id → t.get? id = some d → d.shape.isReference = true →
      ReceiverRule t target (some id)
  | other (id d) :
      target.type? = some id → t.get? id = some d → d.shape.admitsNull = false →
      ReceiverRule t target none

/-- `LiftRule s type lifted s'` says that `lifted` is the type of a conditional access in which
something of type `type` is accessed. -/
inductive LiftRule (s : Store) : Option TypeId → Option TypeId → Store → Prop where
  | untyped : LiftRule s none none s
  | void (id d) :
      s.table.get? id = some d → d.shape.isVoid = true → LiftRule s (some id) (some id) s
  | nullable (id d lifted t) :
      s.table.get? id = some d → d.shape.isVoid = false → s.table.nullableOf id = .ok (lifted, t) →
      LiftRule s (some id) (some lifted) { s with table := t }

/-- `CallRule ctx source callee target arguments b ds` says that the call of `target` with
`arguments` is bound to `b`. -/
inductive CallRule (ctx : Context) (source callee : Expr) (target : BoundExpr)
    (arguments : List BoundExpr) : BoundExpr → List Diagnostic → Prop where
  | faulty :
      target.hasAnyErrors = true →
      CallRule ctx source callee target arguments (.bad source (target :: arguments)) []
  | call (name f) :
      target = .methodGroup name f → arguments.length = f.params.length →
      CallRule ctx source callee target arguments (.call source f arguments) []
  | arity (name f) :
      target = .methodGroup name f → arguments.length ≠ f.params.length →
      CallRule ctx source callee target arguments (.bad source arguments)
        [ctx.mistake (.badArity f.name f.params.length arguments.length) source.position]
  | notInvocable :
      target.hasAnyErrors = false → (∀ name f, target ≠ .methodGroup name f) →
      CallRule ctx source callee target arguments (.bad source (target :: arguments))
        [ctx.mistake (.notInvocable callee.toText) source.position]

/-- The builtin type of the literals of a kind. -/
def builtin? : LiteralKind → Option Builtin
  | .int => some .int
  | .string => some .string
  | .bool => some .bool
  | .null | .other _ => none

/-- `LiteralRule s source l b s'` says that the literal `l` is bound to `b`. -/
inductive LiteralRule (s : Store) (source : Expr) (l : Literal) : BoundExpr → Store → Prop where
  | typed (k) :
      builtin? l.kind = some k →
      LiteralRule s source l (.literal source (some (s.table.ensure k).1) l)
        { s with table := (s.table.ensure k).2 }
  | untyped : builtin? l.kind = none → LiteralRule s source l (.literal source none l) s

/-- `JoinRule t b joins` says whether `b` can be part of a string. -/
inductive JoinRule (t : TypeTable) (b : BoundExpr) : Bool → Prop where
  | literal (source type l) : b = .literal source type l → type = none → JoinRule t b true
  | untyped :
      b.type? = none → (∀ source type l, b ≠ .literal source type l) → JoinRule t b false
  | typed (id d) :
      b.type? = some id → t.get? id = some d → JoinRule t b !(d.shape.isVoid || d.shape.isUnsafe)

/-- `SumRule t int string left right type` says that the sum of `left` and `right` has the type
`type`, if any. -/
inductive SumRule (t : TypeTable) (int string : TypeId) (left right : BoundExpr) :
    Option TypeId → Prop where
  | int :
      left.type? = some int → right.type? = some int → SumRule t int string left right (some int)
  | joined :
      ¬ (left.type? = some int ∧ right.type? = some int) →
      left.type? = some string ∨ right.type? = some string →
      JoinRule t left true → JoinRule t right true → SumRule t int string left right (some string)
  | leftApart :
      ¬ (left.type? = some int ∧ right.type? = some int) →
      left.type? = some string ∨ right.type? = some string →
      JoinRule t left false → SumRule t int string left right none
  | rightApart :
      ¬ (left.type? = some int ∧ right.type? = some int) →
      left.type? = some string ∨ right.type? = some string →
      JoinRule t left true → JoinRule t right false → SumRule t int string left right none
  | other :
      ¬ (left.type? = some int ∧ right.type? = some int) →
      ¬ (left.type? = some string ∨ right.type? = some string) →
      SumRule t int string left right none

/-- The store in which the types of a sum have been found. -/
def Store.withSumTypes (s : Store) : Store :=
  { s with table := ((s.table.ensure .int).2.ensure .string).2 }

/-- `BinaryRule ctx source op s left right b s' ds` says that the sum of `left` and `right` is bound
to `b`. -/
inductive BinaryRule (ctx : Context) (source : Expr) (op : String) (s : Store)
    (left right : BoundExpr) : BoundExpr → Store → List Diagnostic → Prop where
  | faulty :
      (left.hasAnyErrors || right.hasAnyErrors) = true →
      BinaryRule ctx source op s left right (.bad source [left, right]) s []
  | sum (id) :
      left.hasAnyErrors = false → right.hasAnyErrors = false →
      SumRule s.withSumTypes.table (s.table.ensure .int).1
        ((s.table.ensure .int).2.ensure .string).1 left right (some id) →
      BinaryRule ctx source op s left right (.binary source op left right id) s.withSumTypes []
  | mistake (shownLeft shownRight) :
      left.hasAnyErrors = false → right.hasAnyErrors = false →
      SumRule s.withSumTypes.table (s.table.ensure .int).1
        ((s.table.ensure .int).2.ensure .string).1 left right none →
      Describes s.withSumTypes.table left shownLeft →
      Describes s.withSumTypes.table right shownRight →
      BinaryRule ctx source op s left right (.bad source [left, right]) s.withSumTypes
        [ctx.mistake (.badBinaryOperands op shownLeft shownRight) source.position]

/-! ## Fields of creations -/

/-- `FieldTypeRule s value span id faulty s' ds` says that a field with the value `value` has the
type `id`, and whether that is a mistake. -/
inductive FieldTypeRule (s : Store) (value : BoundExpr) (span : Span) :
    TypeId → Bool → Store → List Diagnostic → Prop where
  | faulty (id) :
      value.hasAnyErrors = true → value.type? = some id → FieldTypeRule s value span id false s []
  | faultyUntyped :
      value.hasAnyErrors = true → value.type? = none →
      FieldTypeRule s value span (s.table.ensureError "error").1 false
        { s with table := (s.table.ensureError "error").2 } []
  | untyped :
      value.hasAnyErrors = false → value.type? = none →
      FieldTypeRule s value span (s.table.ensureError "error").1 true
        { s with table := (s.table.ensureError "error").2 }
        [.ofProblem "bind" (.badPropertyValueType value.display) span]
  | void (id d) :
      value.hasAnyErrors = false → value.type? = some id → s.table.get? id = some d →
      d.shape.isVoid = true →
      FieldTypeRule s value span (s.table.ensureError "void").1 true
        { s with table := (s.table.ensureError "void").2 }
        [.ofProblem "bind" (.badPropertyValueType (Text.ofString d.name)) span]
  | denied (id d) :
      value.hasAnyErrors = false → value.type? = some id → s.table.get? id = some d →
      d.shape.isVoid = false → (d.shape.isUnsafe || d.shape.isRestricted) = true →
      FieldTypeRule s value span id true s
        [.ofProblem "bind" (.badPropertyValueType (Text.ofString d.name)) span]
  | usable (id d) :
      value.hasAnyErrors = false → value.type? = some id → s.table.get? id = some d →
      d.shape.isVoid = false → (d.shape.isUnsafe || d.shape.isRestricted) = false →
      FieldTypeRule s value span id false s []

/-- `FieldNameRule ctx used init name kept ds` says that the field of `init` keeps the name `kept`,
if any, where the names in `used` are in use. -/
inductive FieldNameRule (ctx : Context) (used : List String) (init : Initializer Expr)
    (name : Option Name) : Option String → List Diagnostic → Prop where
  | malformed : name.filter (·.isIdentifier) = none → FieldNameRule ctx used init name none []
  | repeated (n) :
      name.filter (·.isIdentifier) = some n → n.text ∈ used →
      FieldNameRule ctx used init name none [ctx.mistake .duplicatePropertyName init.position]
  | kept (n) :
      name.filter (·.isIdentifier) = some n → n.text ∉ used →
      FieldNameRule ctx used init name (some n.text) []

/-- Where the name of a field stands. -/
def namePosition (init : Initializer Expr) (name : Option Name) : Option Position :=
  match name.filter (·.isIdentifier) with
  | some name => name.position
  | none => init.position

/-- `FieldRule ctx index used init s value field s' ds` says that the initializer `init` at the
index `index`, whose value has been bound to `value`, makes `field`. -/
inductive FieldRule (ctx : Context) (index : Nat) (used : List String) (init : Initializer Expr)
    (s : Store) (value : BoundExpr) : ResolvedField → Store → List Diagnostic → Prop where
  | field (kept nameReports type badType s' typeReports nullability) :
      FieldNameRule ctx used init (ResolvedField.shapeOf init).1 kept nameReports →
      FieldTypeRule s value (ctx.span init.position) type badType s' typeReports →
      Nullability.ofType s'.table type ctx.nullable = .ok nullability →
      FieldRule ctx index used init s value
        { field :=
            { name := kept.getD ("$" ++ toString index)
              span := ctx.span (namePosition init (ResolvedField.shapeOf init).1)
              type := type
              nullability := nullability }
          value := value
          label := init.label
          name := kept
          faulty := (ResolvedField.shapeOf init).2 || init.value.isError || kept.isNone || badType }
        s' (nameReports ++ typeReports)

/-- What is reported for an initializer before its value is bound. -/
def Context.declaratorReports (ctx : Context) (init : Initializer Expr) : List Diagnostic :=
  if (ResolvedField.shapeOf init).2 then [ctx.mistake .invalidMemberDeclarator init.value.position]
  else []

/-- What is reported for a creation after its fields have been resolved. -/
def Context.creationReports (ctx : Context) (new : Option Position) : List Diagnostic :=
  if allowsCreation ctx.member then [] else [ctx.mistake .anonymousTypeNotAvailable new]

/-- The node of a creation whose fields have been resolved to a type. -/
def creationNode (ctx : Context) (source : Expr) (new : Option Position)
    (resolved : List ResolvedField) (type : AnonymousType) : BoundExpr :=
  .creation source new type (resolved.map (·.field)) (resolved.map (·.value))
    (resolved.filterMap (·.declaration? type))
    (resolved.any (·.faulty) || !allowsCreation ctx.member)

/-! ## Expressions -/

mutual

/-- `Binds ctx r e s b s' ds` says that `e` is bound to `b`. -/
inductive Binds (ctx : Context) :
    Option Receiver → Expr → Store → BoundExpr → Store → List Diagnostic → Prop where
  | name (r name s b ds) :
      NameRule ctx s.table name b ds → Binds ctx r (.identifier name) s b s ds
  | staticAccess (r p target name s owner b ds) :
      ctx.typeNamed s.table target = some owner →
      StaticFieldRule ctx s.table (.memberAccess p target name) owner name b ds →
      Binds ctx r (.memberAccess p target name) s b s ds
  | instanceAccess (r p target name s value s' ds b ds') :
      ctx.typeNamed s.table target = none →
      Binds ctx r target s value s' ds →
      InstanceFieldRule ctx s'.table (.memberAccess p target name) value name b ds' →
      Binds ctx r (.memberAccess p target name) s b s' (ds ++ ds')
  | staticPath (r p left right s owner b ds) :
      ctx.typeNamed s.table left = some owner →
      StaticFieldRule ctx s.table (.qualifiedName p left right) owner right b ds →
      Binds ctx r (.qualifiedName p left right) s b s ds
  | unknownOwner (r p name right s) :
      ctx.typeNamed s.table (.identifier name) = none →
      Binds ctx r (.qualifiedName p (.identifier name) right) s
        (.bad (.qualifiedName p (.identifier name) right) []) s
        [ctx.mistake (.unknownType (Text.ofString name.text)) name.position]
  | longPath (r p left right s inner s' ds ds') :
      ctx.typeNamed s.table left = none → Context.simpleName? left = none →
      Binds ctx r left s inner s' ds → PathRule ctx left inner ds' →
      Binds ctx r (.qualifiedName p left right) s (.bad (.qualifiedName p left right) [inner]) s'
        (ds ++ ds')
  | faultyTarget (r p target access s bound s' ds) :
      Binds ctx r target s bound s' ds → bound.hasAnyErrors = true →
      Binds ctx r (.conditionalAccess p target access) s
        (.bad (.conditionalAccess p target access) [bound]) s' ds
  | badReceiver (r p target access s bound s' ds shown) :
      Binds ctx r target s bound s' ds → bound.hasAnyErrors = false →
      ReceiverRule s'.table bound none → Describes s'.table bound shown →
      Binds ctx r (.conditionalAccess p target access) s
        (.bad (.conditionalAccess p target access) [bound]) s'
        (ds ++ [ctx.mistake (.badConditionalReceiver shown) p])
  | conditionalAccess (r p target access s bound s' ds type accessed s'' ds' lifted s''') :
      Binds ctx r target s bound s' ds → bound.hasAnyErrors = false →
      ReceiverRule s'.table bound (some type) →
      Binds ctx (some ⟨target, type⟩) access s' accessed s'' ds' →
      LiftRule s'' accessed.type? lifted s''' →
      Binds ctx r (.conditionalAccess p target access) s
        (.conditionalAccess (.conditionalAccess p target access) bound accessed lifted) s'''
        (ds ++ ds')
  | memberBinding (r p name s b ds) :
      InstanceFieldRule ctx s.table (.memberBinding p name) r.node name b ds →
      Binds ctx (some r) (.memberBinding p name) s b s ds
  | invocation (r p callee arguments s target s' ds bound s'' ds' b ds'') :
      Binds ctx r callee s target s' ds → BindsAll ctx r arguments s' bound s'' ds' →
      CallRule ctx (.invocation p callee arguments) callee target bound b ds'' →
      Binds ctx r (.invocation p callee arguments) s b s'' (ds ++ ds' ++ ds'')
  | literal (r p l s b s') :
      LiteralRule s (.literal p l) l b s' → Binds ctx r (.literal p l) s b s' []
  | binary (r p op left right s boundLeft s' ds boundRight s'' ds' b s''' ds'') :
      Binds ctx r left s boundLeft s' ds → Binds ctx r right s' boundRight s'' ds' →
      BinaryRule ctx (.binary p op left right) op s'' boundLeft boundRight b s''' ds'' →
      Binds ctx r (.binary p op left right) s b s''' (ds ++ ds' ++ ds'')
  | parenthesized (r p inner s b s' ds) :
      Binds ctx r inner s b s' ds → Binds ctx r (.parenthesized p inner) s b s' ds
  | creation (r p new initializers s resolved s' ds type s'') :
      BindsFields ctx r 0 [] initializers s resolved s' ds →
      s'.intern (resolved.map (·.field)) (ctx.span new) = .ok (type, s'') →
      Binds ctx r (.creation p new initializers) s
        (creationNode ctx (.creation p new initializers) new resolved type) s''
        (ds ++ ctx.creationReports new)
  | error (r p text s) : Binds ctx r (.error p text) s (.bad (.error p text) []) s []

/-- `BindsAll ctx r es s bs s' ds` says that the expressions `es` are bound to `bs` in order. -/
inductive BindsAll (ctx : Context) :
    Option Receiver → List Expr → Store → List BoundExpr → Store → List Diagnostic → Prop where
  | nil (r s) : BindsAll ctx r [] s [] s []
  | cons (r e es s b s' ds bs s'' ds') :
      Binds ctx r e s b s' ds → BindsAll ctx r es s' bs s'' ds' →
      BindsAll ctx r (e :: es) s (b :: bs) s'' (ds ++ ds')

/-- `BindsFields ctx r index used initializers s fields s' ds` says that the initializers from the
index `index` on make `fields` in order, where the names in `used` are in use. -/
inductive BindsFields (ctx : Context) : Option Receiver → Nat → List String →
    List (Initializer Expr) → Store → List ResolvedField → Store → List Diagnostic → Prop where
  | nil (r index used s) : BindsFields ctx r index used [] s [] s []
  | cons (r index used init rest s value s' ds field s'' ds' others s''' ds'') :
      Binds ctx r init.value s value s' ds →
      FieldRule ctx index used init s' value field s'' ds' →
      BindsFields ctx r (index + 1) (used ++ field.name.toList) rest s'' others s''' ds'' →
      BindsFields ctx r index used (init :: rest) s (field :: others) s'''
        (ctx.declaratorReports init ++ ds ++ ds' ++ ds'')

end

end AnonymousObjects
