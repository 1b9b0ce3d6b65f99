import AnonymousObjects.Compilation
import Mathlib.Data.List.Forall2

/-!
# Trees that differ in ids

`b.Alike R c` says that the bound trees `b` and `c` are the same but for ids, and that ids in the
same place are related by `R`. Two things that depend on what was bound before are left out: the
number of the template of an anonymous type, and the place that first asked for the type.
-/

namespace AnonymousObjects

/-! ## Types and symbols -/

section

variable (R : TypeId → TypeId → Prop)

/-- Fields of declared types that differ in their types. -/
structure FieldSchema.Alike (f g : FieldSchema) : Prop where
  name : g.name = f.name
  type : R f.type g.type
  isStatic : g.isStatic = f.isStatic

/-- Functions that differ in the types of their signatures. -/
structure FunctionSymbol.Alike (f g : FunctionSymbol) : Prop where
  name : g.name = f.name
  params : List.Forall₂ R f.params g.params
  result : R f.result g.result
  span : g.span = f.span

/-- Fields of anonymous types that differ in their types. -/
structure AnonymousField.Alike (f g : AnonymousField) : Prop where
  name : g.name = f.name
  span : g.span = f.span
  type : R f.type g.type
  nullability : g.nullability = f.nullability

/-- Properties that differ in their types and owners. -/
structure Property.Alike (p q : Property) : Prop where
  name : q.name = p.name
  index : q.index = p.index
  type : R p.type q.type
  owner : R p.owner q.owner

/-- Constructors that differ in the types of their parameters and in their owners. -/
structure Constructor.Alike (c d : Constructor) : Prop where
  params : List.Forall₂ R c.params d.params
  owner : R c.owner d.owner

/-- Methods that differ in the types of their signatures and in their owners. -/
structure Method.Alike (m n : Method) : Prop where
  name : n.name = m.name
  params : List.Forall₂ R m.params n.params
  result : R m.result n.result
  owner : R m.owner n.owner

/-- Keys with the same names. -/
def AnonymousKey.Alike : AnonymousKey → AnonymousKey → Prop :=
  List.Forall₂ fun p q => q.1 = p.1 ∧ R p.2 q.2

/-- Anonymous types with the same members but for ids. The numbers of their templates and the places
that first asked for them are left out. -/
structure AnonymousType.Alike (a b : AnonymousType) : Prop where
  fieldNames : b.template.fieldNames = a.template.fieldNames
  id : R a.id b.id
  properties : List.Forall₂ (Property.Alike R) a.properties b.properties
  constructor : a.constructor.Alike R b.constructor
  methods : List.Forall₂ (Method.Alike R) a.methods b.methods

/-- Declarations of properties that differ in ids. -/
structure PropertyDeclaration.Alike (d e : PropertyDeclaration) : Prop where
  label : e.label = d.label
  property : d.property.Alike R e.property
  type : R d.type e.type

/-- Receivers that differ in their types. -/
structure Receiver.Alike (r q : Receiver) : Prop where
  source : q.source = r.source
  type : R r.type q.type

/-! ## Bound trees -/

mutual

/-- `b.Alike R c` says that `b` and `c` are the same but for ids that are related by `R`. -/
inductive BoundExpr.Alike : BoundExpr → BoundExpr → Prop where
  | literal (source type type' value) :
      Option.Rel R type type' →
      Alike (.literal source type value) (.literal source type' value)
  | global (source name type type') :
      R type type' → Alike (.global source name type) (.global source name type')
  | staticField (source field field') :
      FieldSchema.Alike R field field' →
      Alike (.staticField source field) (.staticField source field')
  | instanceField (source receiver receiver' field field') :
      Alike receiver receiver' → FieldSchema.Alike R field field' →
      Alike (.instanceField source receiver field) (.instanceField source receiver' field')
  | conditionalReceiver (source type type') :
      R type type' → Alike (.conditionalReceiver source type) (.conditionalReceiver source type')
  | conditionalAccess (source receiver receiver' access access' type type') :
      Alike receiver receiver' → Alike access access' → Option.Rel R type type' →
      Alike (.conditionalAccess source receiver access type)
        (.conditionalAccess source receiver' access' type')
  | methodGroup (source function function') :
      FunctionSymbol.Alike R function function' →
      Alike (.methodGroup source function) (.methodGroup source function')
  | call (source function function' arguments arguments') :
      FunctionSymbol.Alike R function function' → AlikeAll arguments arguments' →
      Alike (.call source function arguments) (.call source function' arguments')
  | binary (source op left left' right right' type type') :
      Alike left left' → Alike right right' → R type type' →
      Alike (.binary source op left right type) (.binary source op left' right' type')
  | bad (source parts parts') :
      AlikeAll parts parts' → Alike (.bad source parts) (.bad source parts')
  | creation (source new type type' fields fields' arguments arguments' declarations declarations'
      faulty) :
      AnonymousType.Alike R type type' →
      List.Forall₂ (AnonymousField.Alike R) fields fields' → AlikeAll arguments arguments' →
      List.Forall₂ (PropertyDeclaration.Alike R) declarations declarations' →
      Alike (.creation source new type fields arguments declarations faulty)
        (.creation source new type' fields' arguments' declarations' faulty)

/-- The same of trees in turn. -/
inductive BoundExpr.AlikeAll : List BoundExpr → List BoundExpr → Prop where
  | nil : AlikeAll [] []
  | cons (b c bs cs) : Alike b c → AlikeAll bs cs → AlikeAll (b :: bs) (c :: cs)

end

mutual

/-- Bound members that differ in ids. Their diagnostics are the same. -/
inductive BoundMember.Alike : BoundMember → BoundMember → Prop where
  | member (member exprs exprs' locals locals' diagnostics) :
      BoundExpr.AlikeAll R exprs exprs' → AlikeAll locals locals' →
      Alike ⟨member, exprs, locals, diagnostics⟩ ⟨member, exprs', locals', diagnostics⟩

/-- The same of members in turn. -/
inductive BoundMember.AlikeAll : List BoundMember → List BoundMember → Prop where
  | nil : AlikeAll [] []
  | cons (m n ms ns) : Alike m n → AlikeAll ms ns → AlikeAll (m :: ms) (n :: ns)

end

/-- Resolved fields that differ in ids. -/
structure ResolvedField.Alike (f g : ResolvedField) : Prop where
  field : f.field.Alike R g.field
  value : f.value.Alike R g.value
  label : g.label = f.label
  name : g.name = f.name
  faulty : g.faulty = f.faulty

end

/-! ## Weaker relations between ids -/

section

variable {R Q : TypeId → TypeId → Prop} (h : ∀ id id', R id id' → Q id id')

include h

/-- Fields alike under a relation are alike under a weaker one. -/
theorem FieldSchema.Alike.imp {f g : FieldSchema} (hf : f.Alike R g) : f.Alike Q g :=
  { hf with type := h _ _ hf.type }

/-- Functions alike under a relation are alike under a weaker one. -/
theorem FunctionSymbol.Alike.imp {f g : FunctionSymbol} (hf : f.Alike R g) : f.Alike Q g :=
  { hf with params := hf.params.imp h, result := h _ _ hf.result }

/-- Fields of creations alike under a relation are alike under a weaker one. -/
theorem AnonymousField.Alike.imp {f g : AnonymousField} (hf : f.Alike R g) : f.Alike Q g :=
  { hf with type := h _ _ hf.type }

/-- Properties alike under a relation are alike under a weaker one. -/
theorem Property.Alike.imp {p q : Property} (hp : p.Alike R q) : p.Alike Q q :=
  { hp with type := h _ _ hp.type, owner := h _ _ hp.owner }

/-- Constructors alike under a relation are alike under a weaker one. -/
theorem Constructor.Alike.imp {c d : Constructor} (hc : c.Alike R d) : c.Alike Q d where
  params := hc.params.imp h
  owner := h _ _ hc.owner

/-- Methods alike under a relation are alike under a weaker one. -/
theorem Method.Alike.imp {m n : Method} (hm : m.Alike R n) : m.Alike Q n :=
  { hm with params := hm.params.imp h, result := h _ _ hm.result, owner := h _ _ hm.owner }

/-- Anonymous types alike under a relation are alike under a weaker one. -/
theorem AnonymousType.Alike.imp {a b : AnonymousType} (ha : a.Alike R b) : a.Alike Q b where
  fieldNames := ha.fieldNames
  id := h _ _ ha.id
  properties := ha.properties.imp fun _ _ hp => hp.imp h
  constructor := ha.constructor.imp h
  methods := ha.methods.imp fun _ _ hm => hm.imp h

/-- Declarations of properties alike under a relation are alike under a weaker one. -/
theorem PropertyDeclaration.Alike.imp {d e : PropertyDeclaration} (hd : d.Alike R e) :
    d.Alike Q e :=
  { hd with property := hd.property.imp h, type := h _ _ hd.type }

/-- Receivers alike under a relation are alike under a weaker one. -/
theorem Receiver.Alike.imp {r q : Receiver} (hr : r.Alike R q) : r.Alike Q q :=
  { hr with type := h _ _ hr.type }

end

/-- Options related by a relation are related by a weaker one. -/
theorem relOption_imp {α : Type} {P Q : α → α → Prop} (h : ∀ a b, P a b → Q a b) {x y : Option α}
    (hxy : Option.Rel P x y) : Option.Rel Q x y := by
  cases hxy with
  | none => exact .none
  | some hab => exact .some (h _ _ hab)

section

variable {R Q : TypeId → TypeId → Prop}

mutual

/-- Trees that are alike are alike by any weaker relation between ids. -/
theorem BoundExpr.Alike.imp (h : ∀ id id', R id id' → Q id id') {b c : BoundExpr}
    (hb : b.Alike R c) : b.Alike Q c := by
  match hb with
  | .literal source type type' value htype =>
      exact .literal source type type' value (relOption_imp h htype)
  | .global source name type type' htype => exact .global source name type type' (h _ _ htype)
  | .staticField source field field' hfield => exact .staticField source _ _ (hfield.imp h)
  | .instanceField source receiver receiver' field field' hreceiver hfield =>
      exact .instanceField source _ _ _ _ (hreceiver.imp h) (hfield.imp h)
  | .conditionalReceiver source type type' htype =>
      exact .conditionalReceiver source type type' (h _ _ htype)
  | .conditionalAccess source _ _ _ _ type type' hreceiver haccess htype =>
      exact .conditionalAccess source _ _ _ _ _ _ (hreceiver.imp h) (haccess.imp h)
        (relOption_imp h htype)
  | .methodGroup source f f' hf => exact .methodGroup source f f' (hf.imp h)
  | .call source f f' _ _ hf harguments => exact .call source f f' _ _ (hf.imp h) (harguments.imp h)
  | .binary source op _ _ _ _ type type' hleft hright htype =>
      exact .binary source op _ _ _ _ type type' (hleft.imp h) (hright.imp h) (h _ _ htype)
  | .bad source _ _ hparts => exact .bad source _ _ (hparts.imp h)
  | .creation source new _ _ _ _ _ _ _ _ faulty htype hfields harguments hdeclarations =>
      exact .creation source new _ _ _ _ _ _ _ _ faulty (htype.imp h)
        (hfields.imp fun _ _ hf => hf.imp h) (harguments.imp h)
        (hdeclarations.imp fun _ _ hd => hd.imp h)

/-- Lists of nodes alike under a relation are alike under a weaker one. -/
theorem BoundExpr.AlikeAll.imp (h : ∀ id id', R id id' → Q id id') {bs cs : List BoundExpr}
    (hbs : AlikeAll R bs cs) : AlikeAll Q bs cs := by
  match hbs with
  | .nil => exact .nil
  | .cons b c bs cs hb hbs => exact .cons b c bs cs (hb.imp h) (hbs.imp h)

end

mutual

/-- Members alike under a relation are alike under a weaker one. -/
theorem BoundMember.Alike.imp (h : ∀ id id', R id id' → Q id id') {m n : BoundMember}
    (hm : m.Alike R n) : m.Alike Q n := by
  match hm with
  | .member member _ _ _ _ diagnostics hexprs hlocals =>
      exact .member member _ _ _ _ diagnostics (hexprs.imp h) (hlocals.imp h)

/-- Lists of members alike under a relation are alike under a weaker one. -/
theorem BoundMember.AlikeAll.imp (h : ∀ id id', R id id' → Q id id') {ms ns : List BoundMember}
    (hms : AlikeAll R ms ns) : AlikeAll Q ms ns := by
  match hms with
  | .nil => exact .nil
  | .cons m n ms ns hm hms => exact .cons m n ms ns (hm.imp h) (hms.imp h)

end

/-- Resolved fields alike under a relation are alike under a weaker one. -/
theorem ResolvedField.Alike.imp (h : ∀ id id', R id id' → Q id id') {f g : ResolvedField}
    (hf : f.Alike R g) : f.Alike Q g :=
  { hf with field := hf.field.imp h, value := hf.value.imp h }

end

/-! ## What trees that are alike have in common -/

namespace BoundExpr

variable {R : TypeId → TypeId → Prop} {b c : BoundExpr} {bs cs : List BoundExpr}

/-- Lists of nodes are alike when their nodes are, one by one. -/
theorem alikeAll_iff : AlikeAll R bs cs ↔ List.Forall₂ (Alike R) bs cs := by
  constructor
  · intro h
    induction bs generalizing cs with
    | nil =>
        cases h
        exact .nil
    | cons b bs ih =>
        cases h with
        | cons _ c _ cs hb hbs => exact .cons hb (ih hbs)
  · intro h
    induction h with
    | nil => exact .nil
    | cons hb _ ih => exact .cons _ _ _ _ hb ih

/-- Lists of nodes that are alike have the same length. -/
theorem AlikeAll.length (h : AlikeAll R bs cs) : cs.length = bs.length :=
  (alikeAll_iff.mp h).length_eq.symm

/-- Nodes that are alike have related types, or none. -/
theorem Alike.type? (h : b.Alike R c) : Option.Rel R b.type? c.type? := by
  cases h with
  | literal _ _ _ _ htype => exact htype
  | conditionalAccess _ _ _ _ _ _ _ _ _ htype => exact htype
  | global _ _ _ _ htype => exact .some htype
  | conditionalReceiver _ _ _ htype => exact .some htype
  | binary _ _ _ _ _ _ _ _ _ _ htype => exact .some htype
  | staticField _ _ _ hfield => exact .some hfield.type
  | instanceField _ _ _ _ _ _ hfield => exact .some hfield.type
  | call _ _ _ _ _ hf => exact .some hf.result
  | creation _ _ _ _ _ _ _ _ _ _ _ htype => exact .some htype.id
  | methodGroup | bad => exact .none

/-- A node like one with a type has a related type. -/
theorem Alike.of_typed (h : b.Alike R c) {id : TypeId} (hid : b.type? = some id) :
    ∃ id', c.type? = some id' ∧ R id id' := by
  have htype := h.type?
  rw [hid] at htype
  cases hother : c.type? with
  | none =>
      rw [hother] at htype
      cases htype
  | some id' =>
      rw [hother] at htype
      cases htype with
      | some hsame => exact ⟨id', rfl, hsame⟩

/-- A node like one without a type has none. -/
theorem Alike.of_untyped (h : b.Alike R c) (hnone : b.type? = none) : c.type? = none := by
  have htype := h.type?
  rw [hnone] at htype
  cases hother : c.type? with
  | none => rfl
  | some id' =>
      rw [hother] at htype
      cases htype

/-- Diagnostics show both in the same way. -/
theorem Alike.display (h : b.Alike R c) : c.display = b.display := by
  cases h <;> rfl

mutual

/-- There is a mistake in both or in neither. -/
theorem Alike.hasAnyErrors {b c : BoundExpr} (h : b.Alike R c) :
    c.hasAnyErrors = b.hasAnyErrors := by
  match h with
  | .literal .. | .global .. | .staticField .. | .conditionalReceiver .. | .methodGroup ..
  | .bad .. => rfl
  | .instanceField _ _ _ _ _ hreceiver _ => exact hreceiver.hasAnyErrors
  | .conditionalAccess _ _ _ _ _ _ _ hreceiver haccess _ =>
      simp [BoundExpr.hasAnyErrors, hreceiver.hasAnyErrors, haccess.hasAnyErrors]
  | .call _ _ _ _ _ _ harguments => exact harguments.anyHasErrors
  | .binary _ _ _ _ _ _ _ _ hleft hright _ =>
      simp [BoundExpr.hasAnyErrors, hleft.hasAnyErrors, hright.hasAnyErrors]
  | .creation _ _ _ _ _ _ _ _ _ _ _ _ _ harguments _ =>
      simp [BoundExpr.hasAnyErrors, harguments.anyHasErrors]

/-- Lists of nodes that are alike have the same mistakes. -/
theorem AlikeAll.anyHasErrors {bs cs : List BoundExpr} (h : AlikeAll R bs cs) :
    BoundExpr.anyHasErrors cs = BoundExpr.anyHasErrors bs := by
  match h with
  | .nil => rfl
  | .cons _ _ _ _ hb hbs => simp [BoundExpr.anyHasErrors, hb.hasAnyErrors, hbs.anyHasErrors]

end

end BoundExpr

namespace BoundMember

variable {R : TypeId → TypeId → Prop}

mutual

/-- Both have the same diagnostics, those of local functions included. -/
theorem Alike.allDiagnostics {m n : BoundMember} (h : m.Alike R n) :
    n.allDiagnostics = m.allDiagnostics := by
  match h with
  | .member _ _ _ _ _ diagnostics _ hlocals =>
      rw [BoundMember.allDiagnostics, BoundMember.allDiagnostics, hlocals.allDiagnosticsOf]

/-- Lists of members that are alike have the same diagnostics. -/
theorem AlikeAll.allDiagnosticsOf {ms ns : List BoundMember} (h : AlikeAll R ms ns) :
    BoundMember.allDiagnosticsOf ns = BoundMember.allDiagnosticsOf ms := by
  match h with
  | .nil => rfl
  | .cons _ _ _ _ hm hms =>
      rw [BoundMember.allDiagnosticsOf, BoundMember.allDiagnosticsOf, hm.allDiagnostics,
        hms.allDiagnosticsOf]

end

end BoundMember

end AnonymousObjects
