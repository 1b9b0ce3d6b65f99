import AnonymousObjects.Binding.Context
import AnonymousObjects.Proofs.Binding.Rules

/-!
# Rules of typing

`HasType ctx t e τ` says which type an expression has, if any, in terms of the declarations of a
program alone: no store is asked, and no type is created. It rests on `Typed`, which has a rule for
each form of expression and tells expressions without a type apart by their `Meaning`. The table `t`
holds the declared types.
-/

namespace AnonymousObjects

open Syntax (Expr Initializer Literal Name)

/-! ## Types -/

/-- A type: a declared one, the nullable type of a declared one, or an anonymous type, which is its
names and types. -/
inductive Ty where
  | declared (id : TypeId)
  | nullable (value : TypeId)
  | anonymous (fields : List (String × Ty))

/-- What an expression means: a value of a type, a literal without one, a function, or nothing
besides. -/
inductive Meaning where
  | value (type : Ty)
  | literal
  | methodGroup (function : FunctionSymbol)
  | nothing

namespace Meaning

/-- The type of what an expression means. -/
def type? : Meaning → Option Ty
  | value type => some type
  | literal | methodGroup _ | nothing => none

/-- A value of a type, or else nothing. -/
def ofType : Option Ty → Meaning
  | some type => value type
  | none => nothing

end Meaning

/-- `Receives t τ inner` says that in a conditional access to a value of type `τ`, member bindings
refer to a value of type `inner`. -/
inductive Receives (t : TypeTable) : Ty → Ty → Prop where
  | reference (id d) :
      t.get? id = some d → d.shape.isReference = true → Receives t (.declared id) (.declared id)
  | anonymous (fields) : Receives t (.anonymous fields) (.anonymous fields)
  | nullable (value) : Receives t (.nullable value) (.declared value)

/-- `Lifts t τ lifted` says that `lifted` is the type of a conditional access in which something of
type `τ` is accessed. -/
inductive Lifts (t : TypeTable) : Option Ty → Option Ty → Prop where
  | untyped : Lifts t none none
  | value (id d) :
      t.get? id = some d → d.shape = .value →
      Lifts t (some (.declared id)) (some (.nullable id))
  | other (id d) :
      t.get? id = some d → d.shape ≠ .value →
      Lifts t (some (.declared id)) (some (.declared id))
  | nullable (value) : Lifts t (some (.nullable value)) (some (.nullable value))
  | anonymous (fields) : Lifts t (some (.anonymous fields)) (some (.anonymous fields))

/-- What can be part of a string. -/
inductive Joins (t : TypeTable) : Meaning → Prop where
  | literal : Joins t .literal
  | declared (id d) :
      t.get? id = some d → d.shape.isVoid = false → d.shape.isUnsafe = false →
      Joins t (.value (.declared id))
  | nullable (value) : Joins t (.value (.nullable value))
  | anonymous (fields) : Joins t (.value (.anonymous fields))

/-- `Adds t left right τ` says that the sum of `left` and `right` has the type `τ`. -/
inductive Adds (t : TypeTable) : Meaning → Meaning → Ty → Prop where
  | int (id) :
      t.lookup Builtin.int.name = some id →
      Adds t (.value (.declared id)) (.value (.declared id)) (.declared id)
  | stringLeft (id right) :
      t.lookup Builtin.string.name = some id → Joins t right →
      Adds t (.value (.declared id)) right (.declared id)
  | stringRight (id left) :
      t.lookup Builtin.string.name = some id → Joins t left →
      Adds t left (.value (.declared id)) (.declared id)

/-! ## Fields of creations -/

/-- A type that a field of an anonymous type may have. -/
inductive Usable (t : TypeTable) : Ty → Prop where
  | declared (id d) :
      t.get? id = some d → d.shape.isVoid = false → d.shape.isUnsafe = false →
      d.shape.isRestricted = false → Usable t (.declared id)
  | nullable (value) : Usable t (.nullable value)
  | anonymous (fields) : Usable t (.anonymous fields)

/-- The names that expressions lend to the fields of creations. -/
inductive Lends : Expr → Name → Prop where
  | identifier (name) : Lends (.identifier name) name
  | memberAccess (p target name) : Lends (.memberAccess p target name) name
  | qualifiedName (p left right) : Lends (.qualifiedName p left right) right
  | memberBinding (p target q name) :
      Lends (.conditionalAccess p target (.memberBinding q name)) name
  | conditionalAccess (p target access name) :
      Lends access name → Lends (.conditionalAccess p target access) name

/-- The name of the field that an initializer makes: that in front of it, or else the one that its
expression lends. -/
inductive Names : Initializer Expr → Name → Prop where
  | label (p name e) : Names ⟨p, some name, e⟩ name
  | lent (p e name) : Lends e name → Names ⟨p, none, e⟩ name

/-! ## Expressions -/

mutual

/-- `Typed ctx t ρ e m` says that `e` means `m`, where member bindings refer to a value of type
`ρ`. -/
inductive Typed (ctx : Context) (t : TypeTable) : Option Ty → Expr → Meaning → Prop where
  | literal (ρ p l k id) :
      builtin? l.kind = some k → t.lookup k.name = some id →
      Typed ctx t ρ (.literal p l) (.value (.declared id))
  | null (ρ p l) : builtin? l.kind = none → Typed ctx t ρ (.literal p l) .literal
  | global (ρ name g) :
      ctx.symbols.global? name.text = some g →
      Typed ctx t ρ (.identifier name) (.value (.declared g.type))
  | function (ρ name f) :
      ctx.symbols.global? name.text = none → ctx.symbols.function? name.text = some f →
      Typed ctx t ρ (.identifier name) (.methodGroup f)
  | staticAccess (ρ p) (type name : Name) (owner field) :
      ctx.symbols.isDeclared type.text = false → t.lookup type.text = some owner →
      t.DeclaresField owner name.text true field →
      Typed ctx t ρ (.memberAccess p (.identifier type) name)
        (.value (.declared field.type))
  | staticPath (ρ p) (type name : Name) (owner field) :
      ctx.symbols.isDeclared type.text = false → t.lookup type.text = some owner →
      t.DeclaresField owner name.text true field →
      Typed ctx t ρ (.qualifiedName p (.identifier type) name)
        (.value (.declared field.type))
  | instanceAccess (ρ p target name id field) :
      Typed ctx t ρ target (.value (.declared id)) →
      t.DeclaresField id name.text false field →
      Typed ctx t ρ (.memberAccess p target name) (.value (.declared field.type))
  | memberBinding (p name id field) :
      t.DeclaresField id name.text false field →
      Typed ctx t (some (.declared id)) (.memberBinding p name) (.value (.declared field.type))
  | conditionalAccess (ρ p target access τ inner m lifted) :
      Typed ctx t ρ target (.value τ) → Receives t τ inner →
      Typed ctx t (some inner) access m → Lifts t m.type? lifted →
      Typed ctx t ρ (.conditionalAccess p target access) (.ofType lifted)
  | invocation (ρ p callee arguments f) :
      Typed ctx t ρ callee (.methodGroup f) → TypedAll ctx t ρ arguments →
      arguments.length = f.params.length →
      Typed ctx t ρ (.invocation p callee arguments) (.value (.declared f.result))
  | binary (ρ p op left right m m' τ) :
      Typed ctx t ρ left m → Typed ctx t ρ right m' → Adds t m m' τ →
      Typed ctx t ρ (.binary p op left right) (.value τ)
  | parenthesized (ρ p inner m) :
      Typed ctx t ρ inner m → Typed ctx t ρ (.parenthesized p inner) m
  | creation (ρ p new initializers fields) :
      allowsCreation ctx.member = true → TypedFields ctx t ρ initializers fields →
      (fields.map (·.1)).Nodup →
      Typed ctx t ρ (.creation p new initializers) (.value (.anonymous fields))

/-- Every one of several expressions means something. -/
inductive TypedAll (ctx : Context) (t : TypeTable) : Option Ty → List Expr → Prop where
  | nil (ρ) : TypedAll ctx t ρ []
  | cons (ρ e es m) : Typed ctx t ρ e m → TypedAll ctx t ρ es → TypedAll ctx t ρ (e :: es)

/-- `TypedFields ctx t ρ initializers fields` says that the initializers make fields of the names
and types in `fields`, in order. -/
inductive TypedFields (ctx : Context) (t : TypeTable) :
    Option Ty → List (Initializer Expr) → List (String × Ty) → Prop where
  | nil (ρ) : TypedFields ctx t ρ [] []
  | cons (ρ init rest name τ fields) :
      Names init name → name.isIdentifier = true → Typed ctx t ρ init.value (.value τ) →
      Usable t τ → TypedFields ctx t ρ rest fields →
      TypedFields ctx t ρ (init :: rest) ((name.text, τ) :: fields)

end

/-- `HasType ctx t e τ` says that `e` has the type `τ`, or that it means something without a type,
outside of any conditional access. -/
def HasType (ctx : Context) (t : TypeTable) (e : Expr) (τ : Option Ty) : Prop :=
  ∃ m, Typed ctx t none e m ∧ m.type? = τ

end AnonymousObjects
