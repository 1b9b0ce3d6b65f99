import AnonymousObjects.Proofs.Binding.Agreement
import AnonymousObjects.Proofs.Binding.Reach
import AnonymousObjects.Proofs.Compilation.Declarations
import AnonymousObjects.Proofs.Syntax.Scoping

/-!
# Binding comes to an end

In a sound store every expression is bound, unless it has a member binding without a target.
`Binds.valid` says that the types of nodes are in the table they are left in, and from this
`binds_total` shows that no rule lacks a type that it asks about.
-/

namespace AnonymousObjects

open Syntax (Expr Initializer Literal Name)

/-- The symbols of a context have types of a table of declared types. -/
structure Context.Fits (ctx : Context) (base : TypeTable) : Prop where
  table : base.Base
  symbols : ctx.symbols.Typed base

variable {ctx : Context} {base : TypeTable} {r : Option Receiver} {s s' : Store} {e : Expr}
  {b : BoundExpr} {ds : List Diagnostic}

/-! ## Stores -/

/-- Binding an expression leaves a store that is reached from the one before. -/
theorem Binds.reaches (h : Binds ctx r e s b s' ds) : s.Reaches s' :=
  (Context.yields_of_binds h).reaches (Context.bindExpr_moves r e)

/-- Binding several expressions leaves a store that is reached from the one before. -/
theorem BindsAll.reaches {es : List Expr} {bs : List BoundExpr}
    (h : BindsAll ctx r es s bs s' ds) : s.Reaches s' :=
  (Context.yieldsAll_of_binds h).reaches (Context.bindExprs_moves r es)

/-- Binding the fields of a creation leaves a store that is reached from the one before. -/
theorem BindsFields.reaches {index : Nat} {used : List String} {inits : List (Initializer Expr)}
    {fields : List ResolvedField} (h : BindsFields ctx r index used inits s fields s' ds) :
    s.Reaches s' :=
  (Context.yieldsFields_of_binds h).reaches (Context.bindInitializers_moves r index used inits)

/-- Resolving a field leaves a store that is reached from the one before. -/
theorem FieldRule.reaches {index : Nat} {used : List String} {init : Initializer Expr}
    {value : BoundExpr} {field : ResolvedField}
    (h : FieldRule ctx index used init s value field s' ds) : s.Reaches s' :=
  (Context.resolve_yields_iff.mpr h).reaches (Context.resolve_moves _ _ _ _ _ _)

/-- Lifting a type leaves a store that is reached from the one before. -/
theorem LiftRule.reaches {type lifted : Option TypeId} (h : LiftRule s type lifted s') :
    s.Reaches s' := by
  cases h with
  | untyped => exact .refl
  | void => exact .refl
  | nullable id d lifted t hd hvoid hmade => exact .single (.nullableOf s id lifted t hmade)

/-- Binding a binary node leaves a store that is reached from the one before. -/
theorem BinaryRule.reaches {source : Expr} {op : String} {left right : BoundExpr}
    (h : BinaryRule ctx source op s left right b s' ds) : s.Reaches s' := by
  have hsum : s.Reaches s.withSumTypes := (Relation.ReflTransGen.single (.ensure s .int)).tail
    (.ensure { s with table := (s.table.ensure .int).2 } .string)
  cases h with
  | faulty => exact .refl
  | sum => exact hsum
  | mistake => exact hsum

/-- Binding keeps a store sound and what was there as it was. -/
theorem Binds.sound (hfits : ctx.Fits base) (h : Binds ctx r e s b s' ds) (hs : s.Sound base) :
    s'.Sound base ∧ s.Extends s' :=
  hs.reaches hfits.table h.reaches

/-- Binding several expressions keeps a store sound and only adds to it. -/
theorem BindsAll.sound {es : List Expr} {bs : List BoundExpr} (hfits : ctx.Fits base)
    (h : BindsAll ctx r es s bs s' ds) (hs : s.Sound base) : s'.Sound base ∧ s.Extends s' :=
  hs.reaches hfits.table h.reaches

/-- Binding the fields of a creation keeps a store sound and only adds to it. -/
theorem BindsFields.sound {index : Nat} {used : List String} {inits : List (Initializer Expr)}
    {fields : List ResolvedField} (hfits : ctx.Fits base)
    (h : BindsFields ctx r index used inits s fields s' ds) (hs : s.Sound base) :
    s'.Sound base ∧ s.Extends s' :=
  hs.reaches hfits.table h.reaches

/-- Resolving a field keeps a store sound and only adds to it. -/
theorem FieldRule.sound {index : Nat} {used : List String} {init : Initializer Expr}
    {value : BoundExpr} {field : ResolvedField} (hfits : ctx.Fits base)
    (h : FieldRule ctx index used init s value field s' ds) (hs : s.Sound base) :
    s'.Sound base ∧ s.Extends s' :=
  hs.reaches hfits.table h.reaches

/-! ## Types of nodes -/

/-- The type of a node, and what a function that it stands for gives, are in the table. -/
structure BoundExpr.Valid (t : TypeTable) (b : BoundExpr) : Prop where
  type : ∀ id, b.type? = some id → t.Has id
  result : ∀ source f, b = .methodGroup source f → t.Has f.result

/-- A receiver refers to a value of a type of the table. -/
def Receiver.Valid (t : TypeTable) (r : Option Receiver) : Prop :=
  ∀ x, r = some x → t.Has x.type

/-- A node stays valid in a table with more types. -/
theorem BoundExpr.Valid.mono {t u : TypeTable} (h : b.Valid t) (hg : t.Grows u) : b.Valid u where
  type id hid := hg.has (h.type id hid)
  result source f hb := hg.has (h.result source f hb)

/-- A receiver stays valid in a table with more types. -/
theorem Receiver.Valid.mono {t u : TypeTable} (h : Receiver.Valid t r) (hg : t.Grows u) :
    Receiver.Valid u r :=
  fun x hx => hg.has (h x hx)

/-- A node that stands for no function is valid if its type is in the table. -/
theorem BoundExpr.valid_of_type {t : TypeTable} {id : TypeId} (htype : b.type? = some id)
    (hid : t.Has id) : b.Valid t where
  type id' hid' := by
    obtain rfl : id = id' := by simpa [htype] using hid'
    exact hid
  result source f hb := by simp [hb, BoundExpr.type?] at htype

/-- A node without a type is valid if it stands for no function. -/
theorem BoundExpr.valid_of_untyped {t : TypeTable} (htype : b.type? = none)
    (hgroup : ∀ source f, b ≠ .methodGroup source f) : b.Valid t where
  type id hid := by
    rw [htype] at hid
    cases hid
  result source f hb := absurd hb (hgroup source f)

/-- A bad node is valid in any table: it has no type. -/
theorem BoundExpr.valid_bad {t : TypeTable} (source : Expr) (parts : List BoundExpr) :
    (BoundExpr.bad source parts).Valid t :=
  valid_of_untyped rfl fun _ _ hb => by cases hb

/-- The node of a name is valid. -/
theorem NameRule.valid {name : Name} (hfits : ctx.Fits base)
    (h : NameRule ctx s.table name b ds) (hs : s.Sound base) : b.Valid s.table := by
  cases h with
  | global g hg => exact BoundExpr.valid_of_type rfl (hs.grows.has (hfits.symbols.has_global hg))
  | function f hg hf =>
      refine ⟨fun id hid => by simp [BoundExpr.type?] at hid, fun source f' hb => ?_⟩
      obtain ⟨rfl, rfl⟩ := BoundExpr.methodGroup.inj hb
      exact hs.grows.has (hfits.symbols.has_result hf)
  | typeName => exact BoundExpr.valid_bad _ _
  | undefined => exact BoundExpr.valid_bad _ _

/-- The node of a static field is valid. -/
theorem StaticFieldRule.valid {source : Expr} {owner : TypeId} {name : Name}
    (hfits : ctx.Fits base) (h : StaticFieldRule ctx s.table source owner name b ds)
    (hs : s.Sound base) : b.Valid s.table := by
  cases h with
  | found field hfield =>
      rw [hs.grows.findField] at hfield
      exact BoundExpr.valid_of_type rfl (hs.grows.has (hfits.table.findField hfield).2)
  | missing => exact BoundExpr.valid_bad _ _

/-- The node of an instance field is valid. -/
theorem InstanceFieldRule.valid {source : Expr} {receiver : BoundExpr} {name : Name}
    (hfits : ctx.Fits base) (h : InstanceFieldRule ctx s.table source receiver name b ds)
    (hs : s.Sound base) : b.Valid s.table := by
  cases h with
  | faulty => exact BoundExpr.valid_bad _ _
  | found id field hclean hid hfield =>
      rw [hs.grows.findField] at hfield
      exact BoundExpr.valid_of_type rfl (hs.grows.has (hfits.table.findField hfield).2)
  | missing => exact BoundExpr.valid_bad _ _

/-- A lifted type is in the table. -/
theorem LiftRule.has {type : Option TypeId} {id : TypeId} (h : LiftRule s type (some id) s') :
    s'.table.Has id := by
  cases h with
  | void _ d hd => exact ⟨d, hd⟩
  | nullable inner d _ t hd hvoid hmade => exact TypeTable.has_nullableOf hmade

/-- The node of a call is valid if the function called is. -/
theorem CallRule.valid {source callee : Expr} {target : BoundExpr} {arguments : List BoundExpr}
    {t : TypeTable} (h : CallRule ctx source callee target arguments b ds)
    (htarget : target.Valid t) : b.Valid t := by
  cases h with
  | faulty => exact BoundExpr.valid_bad _ _
  | call name f hf => exact BoundExpr.valid_of_type rfl (htarget.result name f hf)
  | arity => exact BoundExpr.valid_bad _ _
  | notInvocable => exact BoundExpr.valid_bad _ _

/-- A builtin type is found in a sound store, which does not change. -/
theorem Store.Sound.ensure (hfits : ctx.Fits base) (hs : s.Sound base) (k : Builtin) :
    base.lookup k.name = some (s.table.ensure k).1 ∧
      base.get? (s.table.ensure k).1 = some ⟨k.shape, k.name⟩ ∧ (s.table.ensure k).2 = s.table := by
  obtain ⟨id, hlookup, hget⟩ := hfits.table.builtins k
  have hfound : s.table.ensure k = (id, s.table) := by
    simp [TypeTable.ensure, TypeTable.ensureNamed, hs.grows.lookup, hlookup]
  rw [hfound]
  exact ⟨hlookup, hget, rfl⟩

/-- A literal gets the builtin type of its kind, which is there already, or no type. -/
theorem LiteralRule.spec {source : Expr} {l : Literal} (hfits : ctx.Fits base)
    (h : LiteralRule s source l b s') (hs : s.Sound base) :
    s' = s ∧ (b = .literal source none l ∧ builtin? l.kind = none ∨
      ∃ k id, builtin? l.kind = some k ∧ base.lookup k.name = some id ∧ base.Has id ∧
        b = .literal source (some id) l) := by
  cases h with
  | typed k hk =>
      obtain ⟨hlookup, hget, hsame⟩ := hs.ensure hfits k
      refine ⟨by rw [hsame], .inr ⟨k, _, hk, hlookup, ⟨_, hget⟩, rfl⟩⟩
  | untyped hk => exact ⟨rfl, .inl ⟨rfl, hk⟩⟩

/-- The types of sums are there already. -/
theorem Store.Sound.withSumTypes (hfits : ctx.Fits base) (hs : s.Sound base) :
    s.withSumTypes = s := by
  obtain ⟨_, _, hint⟩ := hs.ensure hfits .int
  obtain ⟨_, _, hstring⟩ := hs.ensure hfits .string
  rw [Store.withSumTypes, hint, hstring]

/-- A sum has the integer type or the string type. -/
theorem SumRule.eq_of_some {t : TypeTable} {int string id : TypeId} {left right : BoundExpr}
    (h : SumRule t int string left right (some id)) : id = int ∨ id = string := by
  cases h with
  | int => exact .inl rfl
  | joined => exact .inr rfl

/-- The node of a binary expression is valid, and nothing is created for it. -/
theorem BinaryRule.valid {source : Expr} {op : String} {left right : BoundExpr}
    (hfits : ctx.Fits base) (h : BinaryRule ctx source op s left right b s' ds)
    (hs : s.Sound base) : s' = s ∧ b.Valid s.table := by
  cases h with
  | faulty => exact ⟨rfl, BoundExpr.valid_bad _ _⟩
  | sum id hleft hright hsum =>
      refine ⟨hs.withSumTypes hfits, BoundExpr.valid_of_type rfl (hs.grows.has ?_)⟩
      obtain ⟨_, hint, hsame⟩ := hs.ensure hfits .int
      obtain ⟨_, hstring, _⟩ := hs.ensure hfits .string
      rw [hsame] at hsum
      rcases hsum.eq_of_some with rfl | rfl
      · exact ⟨_, hint⟩
      · exact ⟨_, hstring⟩
  | mistake => exact ⟨hs.withSumTypes hfits, BoundExpr.valid_bad _ _⟩

/-- The type of a node is in the table that binding leaves. -/
theorem Binds.valid (hfits : ctx.Fits base) {r : Option Receiver} {e : Expr} {s s' : Store}
    {b : BoundExpr} {ds : List Diagnostic} (h : Binds ctx r e s b s' ds) (hs : s.Sound base) :
    b.Valid s'.table := by
  match h with
  | .name _ _ _ _ _ hrule => exact hrule.valid hfits hs
  | .staticAccess _ _ _ _ _ _ _ _ _ hrule => exact hrule.valid hfits hs
  | .instanceAccess _ _ _ _ _ _ _ _ _ _ _ hvalue hrule =>
      exact hrule.valid hfits (hvalue.sound hfits hs).1
  | .staticPath _ _ _ _ _ _ _ _ _ hrule => exact hrule.valid hfits hs
  | .unknownOwner .. => exact BoundExpr.valid_bad _ _
  | .longPath .. => exact BoundExpr.valid_bad _ _
  | .faultyTarget .. => exact BoundExpr.valid_bad _ _
  | .badReceiver .. => exact BoundExpr.valid_bad _ _
  | .conditionalAccess _ _ _ _ _ _ _ _ _ _ _ _ lifted _ _ _ _ _ hlift =>
      cases lifted with
      | none => exact BoundExpr.valid_of_untyped rfl fun _ _ hb => by cases hb
      | some id => exact BoundExpr.valid_of_type rfl hlift.has
  | .memberBinding _ _ _ _ _ _ hrule => exact hrule.valid hfits hs
  | .invocation _ _ _ _ _ _ _ _ _ _ _ _ _ htarget hbound hrule =>
      -- The node of the callee was made before the arguments were bound, and is valid in what they
      -- added.
      have hcallee := Binds.valid hfits htarget hs
      have hsound := (htarget.sound hfits hs).1
      exact hrule.valid (hcallee.mono (hbound.sound hfits hsound).2.table)
  | .literal _ _ _ _ _ _ hrule =>
      obtain ⟨rfl, ⟨rfl, _⟩ | ⟨k, id, _, _, hid, rfl⟩⟩ := hrule.spec hfits hs
      · exact BoundExpr.valid_of_untyped rfl fun _ _ hb => by cases hb
      · exact BoundExpr.valid_of_type rfl (hs.grows.has hid)
  | .binary _ _ _ _ _ _ _ _ _ _ _ _ _ _ _ hleft hright hrule =>
      have hsound := (hright.sound hfits (hleft.sound hfits hs).1).1
      obtain ⟨rfl, hvalid⟩ := hrule.valid hfits hsound
      exact hvalid
  | .parenthesized _ _ _ _ _ _ _ hinner => exact Binds.valid hfits hinner hs
  | .creation _ _ _ _ _ resolved t _ type _ hresolved htype =>
      have hsound := (hresolved.sound hfits hs).1
      obtain ⟨hmem, _⟩ := hsound.intern_spec hfits.table htype
      have hsound' := (hsound.step hfits.table (.intern _ _ _ _ _ htype)).1
      obtain ⟨name, hget⟩ := hsound'.registered type hmem
      exact BoundExpr.valid_of_type rfl ⟨_, hget⟩
  | .error .. => exact BoundExpr.valid_bad _ _

/-! ## Nodes for all expressions -/

/-- A valid node can be described. -/
theorem describes_total {t : TypeTable} (h : b.Valid t) : ∃ text, Describes t b text := by
  cases htype : b.type? with
  | none => exact ⟨_, .untyped htype⟩
  | some id =>
    obtain ⟨d, hd⟩ := h.type id htype
    exact ⟨_, .typed id d htype hd⟩

/-- Every name is bound to something. -/
theorem nameRule_total (ctx : Context) (t : TypeTable) (name : Name) :
    ∃ b ds, NameRule ctx t name b ds := by
  cases hg : ctx.symbols.global? name.text with
  | some g => exact ⟨_, _, .global g hg⟩
  | none =>
    cases hf : ctx.symbols.function? name.text with
    | some f => exact ⟨_, _, .function f hg hf⟩
    | none =>
      cases hid : t.lookup name.text with
      | some id => exact ⟨_, _, .typeName id hg hf hid⟩
      | none => exact ⟨_, _, .undefined hg hf hid⟩

/-- A type that an expression names is in the table. -/
theorem has_typeNamed {t : TypeTable} {owner : TypeId} (h : ctx.typeNamed t e = some owner) :
    t.Has owner := by
  unfold Context.typeNamed at h
  split at h
  · split at h
    · cases h
    · obtain ⟨d, hd, _⟩ := TypeTable.lookup_spec h
      exact ⟨d, hd⟩
  · cases h

/-- A static field of a type that exists is bound to something, found or not. -/
theorem staticFieldRule_total (ctx : Context) {t : TypeTable} {owner : TypeId}
    (h : t.Has owner) (source : Expr) (name : Name) :
    ∃ b ds, StaticFieldRule ctx t source owner name b ds := by
  cases hfield : t.findField owner name.text true with
  | some field => exact ⟨_, _, .found field hfield⟩
  | none =>
    obtain ⟨d, hd⟩ := h
    exact ⟨_, _, .missing d hfield hd⟩

/-- An instance field of a valid receiver is bound to something, found or not. -/
theorem instanceFieldRule_total (ctx : Context) {t : TypeTable} {receiver : BoundExpr}
    (h : receiver.Valid t) (source : Expr) (name : Name) :
    ∃ b ds, InstanceFieldRule ctx t source receiver name b ds := by
  cases hfaulty : receiver.hasAnyErrors with
  | true => exact ⟨_, _, .faulty hfaulty⟩
  | false =>
    cases hfield : receiver.type?.bind (t.findField · name.text false) with
    | some field =>
      obtain ⟨id, hid, hfield⟩ := Option.bind_eq_some_iff.mp hfield
      exact ⟨_, _, .found id field hfaulty hid hfield⟩
    | none =>
      obtain ⟨shown, hshown⟩ := describes_total h
      exact ⟨_, _, .missing shown hfaulty hfield hshown⟩

/-- A path that names no type is reported or rests on a mistake. -/
theorem pathRule_total (ctx : Context) (left : Expr) (inner : BoundExpr) :
    ∃ ds, PathRule ctx left inner ds := by
  cases hfaulty : inner.hasAnyErrors with
  | true => exact ⟨_, .faulty hfaulty⟩
  | false => exact ⟨_, .unknown hfaulty⟩

/-- A valid target has a type for member bindings to refer to, or none. -/
theorem receiverRule_total {t : TypeTable} (h : b.Valid t) : ∃ type, ReceiverRule t b type := by
  cases htype : b.type? with
  | none => exact ⟨_, .untyped htype⟩
  | some id =>
    obtain ⟨⟨shape, name⟩, hd⟩ := h.type id htype
    cases shape with
    | nullable inner => exact ⟨_, .nullable id inner name htype hd⟩
    | reference => exact ⟨_, .reference id _ htype hd rfl⟩
    | anonymous parts => exact ⟨_, .reference id _ htype hd rfl⟩
    | value => exact ⟨_, .other id _ htype hd rfl⟩
    | void => exact ⟨_, .other id _ htype hd rfl⟩
    | pointer target => exact ⟨_, .other id _ htype hd rfl⟩
    | restricted => exact ⟨_, .other id _ htype hd rfl⟩
    | error => exact ⟨_, .other id _ htype hd rfl⟩

/-- What member bindings refer to has a type of the table. -/
theorem ReceiverRule.has {t : TypeTable} {id : TypeId} (hordered : t.Ordered)
    (h : ReceiverRule t b (some id)) : t.Has id := by
  cases h with
  | nullable outer _ name htype hd => exact hordered.has hd (by simp [TypeShape.arguments])
  | reference _ d htype hd => exact ⟨d, hd⟩

/-- A type that exists can be lifted. -/
theorem liftRule_total {type : Option TypeId} (h : ∀ id, type = some id → s.table.Has id) :
    ∃ lifted s', LiftRule s type lifted s' := by
  cases type with
  | none => exact ⟨_, _, .untyped⟩
  | some id =>
    obtain ⟨d, hd⟩ := h id rfl
    cases hvoid : d.shape.isVoid with
    | true => exact ⟨_, _, .void id d hd hvoid⟩
    | false =>
      obtain ⟨⟨lifted, t⟩, hmade⟩ := TypeTable.nullableOf_of_has ⟨d, hd⟩
      exact ⟨_, _, .nullable id d lifted t hd hvoid hmade⟩

/-- Every call is bound to something. -/
theorem callRule_total (ctx : Context) (source callee : Expr) (target : BoundExpr)
    (arguments : List BoundExpr) : ∃ b ds, CallRule ctx source callee target arguments b ds := by
  cases hfaulty : target.hasAnyErrors with
  | true => exact ⟨_, _, .faulty hfaulty⟩
  | false =>
    by_cases hgroup : ∃ name f, target = .methodGroup name f
    · obtain ⟨name, f, hgroup⟩ := hgroup
      by_cases hlength : arguments.length = f.params.length
      · exact ⟨_, _, .call name f hgroup hlength⟩
      · exact ⟨_, _, .arity name f hgroup hlength⟩
    · exact ⟨_, _, .notInvocable hfaulty fun name f hf => hgroup ⟨name, f, hf⟩⟩

/-- Every literal is bound to something. -/
theorem literalRule_total (s : Store) (source : Expr) (l : Literal) :
    ∃ b s', LiteralRule s source l b s' := by
  cases hk : builtin? l.kind with
  | some k => exact ⟨_, _, .typed k hk⟩
  | none => exact ⟨_, _, .untyped hk⟩

/-- Whether a valid node can be part of a string is settled. -/
theorem joinRule_total {t : TypeTable} (h : b.Valid t) : ∃ joins, JoinRule t b joins := by
  cases htype : b.type? with
  | some id =>
    obtain ⟨d, hd⟩ := h.type id htype
    exact ⟨_, .typed id d htype hd⟩
  | none =>
    by_cases hliteral : ∃ source type l, b = .literal source type l
    · obtain ⟨source, type, l, rfl⟩ := hliteral
      exact ⟨_, .literal source type l rfl htype⟩
    · exact ⟨_, .untyped htype fun source type l hb => hliteral ⟨source, type, l, hb⟩⟩

/-- Two valid nodes have a sum of some type, or of none. -/
theorem sumRule_total {t : TypeTable} (int string : TypeId) {left right : BoundExpr}
    (hleft : left.Valid t) (hright : right.Valid t) :
    ∃ type, SumRule t int string left right type := by
  by_cases hint : left.type? = some int ∧ right.type? = some int
  · exact ⟨_, .int hint.1 hint.2⟩
  · by_cases hstring : left.type? = some string ∨ right.type? = some string
    · obtain ⟨joins, hjoins⟩ := joinRule_total hleft
      obtain ⟨joins', hjoins'⟩ := joinRule_total hright
      match joins, joins' with
      | true, true => exact ⟨_, .joined hint hstring hjoins hjoins'⟩
      | true, false => exact ⟨_, .rightApart hint hstring hjoins hjoins'⟩
      | false, _ => exact ⟨_, .leftApart hint hstring hjoins⟩
    · exact ⟨_, .other hint hstring⟩

/-- Two valid nodes are joined by any operator, with a mistake or without. -/
theorem binaryRule_total (hfits : ctx.Fits base) (hs : s.Sound base) {left right : BoundExpr}
    (hleft : left.Valid s.table) (hright : right.Valid s.table) (source : Expr) (op : String) :
    ∃ b s' ds, BinaryRule ctx source op s left right b s' ds := by
  cases hfaulty : left.hasAnyErrors || right.hasAnyErrors with
  | true => exact ⟨_, _, _, .faulty hfaulty⟩
  | false =>
    obtain ⟨hcleanLeft, hcleanRight⟩ := Bool.or_eq_false_iff.mp hfaulty
    rw [← hs.withSumTypes hfits] at hleft hright
    obtain ⟨type, hsum⟩ := sumRule_total (s.table.ensure .int).1
      ((s.table.ensure .int).2.ensure .string).1 hleft hright
    cases type with
    | some id => exact ⟨_, _, _, .sum id hcleanLeft hcleanRight hsum⟩
    | none =>
      obtain ⟨shown, hshown⟩ := describes_total hleft
      obtain ⟨shown', hshown'⟩ := describes_total hright
      exact ⟨_, _, _, .mistake shown shown' hcleanLeft hcleanRight hsum hshown hshown'⟩

/-- The type of a field is in the table. -/
theorem FieldTypeRule.has {value : BoundExpr} {span : Span} {id : TypeId} {faulty : Bool}
    (h : FieldTypeRule s value span id faulty s' ds) (hvalue : value.Valid s.table) :
    s'.table.Has id := by
  cases h with
  | faulty _ hfaulty htype => exact hvalue.type id htype
  | faultyUntyped => exact TypeTable.has_ensureError _ _
  | untyped => exact TypeTable.has_ensureError _ _
  | void => exact TypeTable.has_ensureError _ _
  | denied _ d hclean htype => exact hvalue.type id htype
  | usable _ d hclean htype => exact hvalue.type id htype

/-- A valid value gives its field a type. -/
theorem fieldTypeRule_total {value : BoundExpr} (hvalue : value.Valid s.table) (span : Span) :
    ∃ id faulty s' ds, FieldTypeRule s value span id faulty s' ds := by
  cases htype : value.type? with
  | none =>
    cases hfaulty : value.hasAnyErrors with
    | true => exact ⟨_, _, _, _, .faultyUntyped hfaulty htype⟩
    | false => exact ⟨_, _, _, _, .untyped hfaulty htype⟩
  | some id =>
    cases hfaulty : value.hasAnyErrors with
    | true => exact ⟨_, _, _, _, .faulty id hfaulty htype⟩
    | false =>
      obtain ⟨d, hd⟩ := hvalue.type id htype
      cases hvoid : d.shape.isVoid with
      | true => exact ⟨_, _, _, _, .void id d hfaulty htype hd hvoid⟩
      | false =>
        cases hdenied : d.shape.isUnsafe || d.shape.isRestricted with
        | true => exact ⟨_, _, _, _, .denied id d hfaulty htype hd hvoid hdenied⟩
        | false => exact ⟨_, _, _, _, .usable id d hfaulty htype hd hvoid hdenied⟩

/-- The name of a field is kept, or else it is reported. -/
theorem fieldNameRule_total (ctx : Context) (used : List String) (init : Initializer Expr)
    (name : Option Name) : ∃ kept ds, FieldNameRule ctx used init name kept ds := by
  cases hname : name.filter (·.isIdentifier) with
  | none => exact ⟨_, _, .malformed hname⟩
  | some n =>
    by_cases hused : n.text ∈ used
    · exact ⟨_, _, .repeated n hname hused⟩
    · exact ⟨_, _, .kept n hname hused⟩

/-- The nullability of a field of a type of the table is known. -/
theorem nullability_total {t : TypeTable} {id : TypeId} (h : t.Has id) (nullable : Option Bool) :
    ∃ nullability, Nullability.ofType t id nullable = .ok nullability := by
  obtain ⟨d, hd⟩ := h
  have hshape : t.shape id = .ok d.shape := TypeTable.shape_eq_ok_iff.mpr ⟨d, hd, rfl⟩
  match nullable with
  | none => exact ⟨_, rfl⟩
  | some false => exact ⟨_, rfl⟩
  | some true =>
    simp only [Nullability.ofType, hshape, bind, Except.bind]
    exact ⟨_, rfl⟩

/-- The type of a resolved field is in the table. -/
theorem FieldRule.has {index : Nat} {used : List String} {init : Initializer Expr}
    {value : BoundExpr} {field : ResolvedField} (hvalue : value.Valid s.table)
    (h : FieldRule ctx index used init s value field s' ds) : s'.table.Has field.field.type := by
  cases h with
  | field _ _ _ _ _ _ _ _ htype => exact htype.has hvalue

/-- A field with a valid value is resolved. -/
theorem fieldRule_total (ctx : Context) {value : BoundExpr} (hvalue : value.Valid s.table)
    (index : Nat) (used : List String) (init : Initializer Expr) :
    ∃ field s' ds, FieldRule ctx index used init s value field s' ds := by
  obtain ⟨kept, reports, hname⟩ :=
    fieldNameRule_total ctx used init (ResolvedField.shapeOf init).1
  obtain ⟨id, faulty, s', reports', htype⟩ := fieldTypeRule_total hvalue (ctx.span init.position)
  obtain ⟨nullability, hnullability⟩ := nullability_total (htype.has hvalue) ctx.nullable
  exact ⟨_, _, _, .field kept reports id faulty s' reports' nullability hname htype hnullability⟩

/-- The types of the fields of a creation are in the table that binding leaves. -/
theorem BindsFields.has (hfits : ctx.Fits base) {r : Option Receiver} {index : Nat}
    {used : List String} {inits : List (Initializer Expr)} {s s' : Store}
    {fields : List ResolvedField} {ds : List Diagnostic}
    (h : BindsFields ctx r index used inits s fields s' ds) (hs : s.Sound base) :
    ∀ f ∈ fields, s'.table.Has f.field.type := by
  match h with
  | .nil .. => simp
  | .cons _ _ _ init rest _ value t _ field u _ others _ _ hvalue hfield hothers =>
      have hsound := (hvalue.sound hfits hs).1
      have hsound' := (hfield.sound hfits hsound).1
      have hextends := (hothers.sound hfits hsound').2
      intro f hf
      rcases List.mem_cons.mp hf with rfl | hf
      · exact hextends.table.has (hfield.has (hvalue.valid hfits hs))
      · exact BindsFields.has hfits hothers hsound' f hf

mutual

/-- An expression is bound unless it has a member binding without a target. -/
theorem binds_total (hfits : ctx.Fits base) (r : Option Receiver) (e : Expr) {s : Store}
    (hs : s.Sound base) (hr : Receiver.Valid s.table r) (hstray : r = none → e.hasStray = false) :
    ∃ b s' ds, Binds ctx r e s b s' ds := by
  cases e with
  | identifier name =>
      obtain ⟨b, ds, hrule⟩ := nameRule_total ctx s.table name
      exact ⟨b, s, ds, .name _ _ _ _ _ hrule⟩
  | memberAccess p target name =>
      cases howner : ctx.typeNamed s.table target with
      | some owner =>
          obtain ⟨b, ds, hrule⟩ := staticFieldRule_total ctx (has_typeNamed howner)
            (.memberAccess p target name) name
          exact ⟨b, s, ds, .staticAccess _ _ _ _ _ owner _ _ howner hrule⟩
      | none =>
          obtain ⟨value, s', ds, hvalue⟩ := binds_total hfits r target hs hr hstray
          obtain ⟨b, ds', hrule⟩ := instanceFieldRule_total ctx (hvalue.valid hfits hs)
            (.memberAccess p target name) name
          exact ⟨b, s', ds ++ ds', .instanceAccess _ _ _ _ _ value _ _ _ _ howner hvalue hrule⟩
  | qualifiedName p left right =>
      cases howner : ctx.typeNamed s.table left with
      | some owner =>
          obtain ⟨b, ds, hrule⟩ := staticFieldRule_total ctx (has_typeNamed howner)
            (.qualifiedName p left right) right
          exact ⟨b, s, ds, .staticPath _ _ _ _ _ owner _ _ howner hrule⟩
      | none =>
          cases hname : Context.simpleName? left with
          | some name =>
              cases left <;> cases hname
              exact ⟨_, _, _, .unknownOwner _ _ _ _ _ howner⟩
          | none =>
              obtain ⟨inner, s', ds, hinner⟩ := binds_total hfits r left hs hr hstray
              obtain ⟨ds', hrule⟩ := pathRule_total ctx left inner
              exact ⟨_, _, _, .longPath _ _ _ _ _ inner _ _ _ howner hname hinner hrule⟩
  | conditionalAccess p target access =>
      obtain ⟨bound, s', ds, hbound⟩ := binds_total hfits r target hs hr hstray
      cases hfaulty : bound.hasAnyErrors with
      | true => exact ⟨_, _, _, .faultyTarget _ _ _ _ _ bound _ _ hbound hfaulty⟩
      | false =>
          -- The access is bound with a receiver of its own, so it may have member bindings.
          have hvalid := hbound.valid hfits hs
          have hsound := (hbound.sound hfits hs).1
          obtain ⟨type, htype⟩ := receiverRule_total hvalid
          cases type with
          | none =>
              obtain ⟨shown, hshown⟩ := describes_total hvalid
              exact ⟨_, _, _, .badReceiver _ _ _ _ _ bound _ _ shown hbound hfaulty htype hshown⟩
          | some id =>
              have hreceiver : Receiver.Valid s'.table (some ⟨target, id⟩) := by
                intro x hx
                obtain rfl := Option.some.inj hx
                exact htype.has hsound.ordered
              obtain ⟨accessed, s'', ds', haccess⟩ := binds_total hfits (some ⟨target, id⟩) access
                hsound hreceiver (by simp)
              obtain ⟨lifted, s''', hlift⟩ := liftRule_total (haccess.valid hfits hsound).type
              exact ⟨_, _, _, .conditionalAccess _ _ _ _ _ bound _ _ id accessed _ _ lifted _ hbound
                hfaulty htype haccess hlift⟩
  | memberBinding p name =>
      -- Without a receiver this would be the one fault that a tree can lead to.
      cases r with
      | none => simp [Expr.hasStray] at hstray
      | some x =>
          have hvalid : x.node.Valid s.table :=
            BoundExpr.valid_of_type (show x.node.type? = some x.type from rfl) (hr x rfl)
          obtain ⟨b, ds, hrule⟩ := instanceFieldRule_total ctx hvalid (.memberBinding p name) name
          exact ⟨b, s, ds, .memberBinding _ _ _ _ _ _ hrule⟩
  | invocation p callee arguments =>
      simp only [Expr.hasStray, Bool.or_eq_false_iff] at hstray
      obtain ⟨target, s', ds, htarget⟩ := binds_total hfits r callee hs hr fun h => (hstray h).1
      obtain ⟨hsound, hextends⟩ := htarget.sound hfits hs
      obtain ⟨bound, s'', ds', hbound⟩ := bindsAll_total hfits r arguments hsound
        (hr.mono hextends.table) fun h => (hstray h).2
      obtain ⟨b, ds'', hrule⟩ := callRule_total ctx (.invocation p callee arguments) callee target
        bound
      exact ⟨b, s'', _, .invocation _ _ _ _ _ target _ _ bound _ _ _ _ htarget hbound hrule⟩
  | literal p l =>
      obtain ⟨b, s', hrule⟩ := literalRule_total s (.literal p l) l
      exact ⟨b, s', [], .literal _ _ _ _ _ _ hrule⟩
  | binary p op left right =>
      simp only [Expr.hasStray, Bool.or_eq_false_iff] at hstray
      obtain ⟨boundLeft, s', ds, hleft⟩ := binds_total hfits r left hs hr fun h => (hstray h).1
      obtain ⟨hsound, hextends⟩ := hleft.sound hfits hs
      obtain ⟨boundRight, s'', ds', hright⟩ := binds_total hfits r right hsound
        (hr.mono hextends.table) fun h => (hstray h).2
      obtain ⟨hsound', hextends'⟩ := hright.sound hfits hsound
      obtain ⟨b, s''', ds'', hrule⟩ := binaryRule_total hfits hsound'
        ((hleft.valid hfits hs).mono hextends'.table) (hright.valid hfits hsound)
        (.binary p op left right) op
      exact ⟨b, s''', _, .binary _ _ _ _ _ _ boundLeft _ _ boundRight _ _ _ _ _ hleft hright hrule⟩
  | parenthesized p inner =>
      obtain ⟨b, s', ds, hinner⟩ := binds_total hfits r inner hs hr hstray
      exact ⟨b, s', ds, .parenthesized _ _ _ _ _ _ _ hinner⟩
  | creation p new initializers =>
      obtain ⟨resolved, s', ds, hresolved⟩ := bindsFields_total hfits r 0 [] initializers hs hr
        hstray
      -- Interning fails only for types that are not there, and the fields have none of these.
      have hhas : ∀ f ∈ resolved.map (·.field), s'.table.Has f.type := by
        intro f hf
        obtain ⟨x, hx, rfl⟩ := List.mem_map.mp hf
        exact hresolved.has hfits hs x hx
      obtain ⟨type, s'', htype⟩ := Store.intern_of_has hhas (ctx.span new)
      exact ⟨_, _, _, .creation _ _ _ _ _ resolved _ _ type _ hresolved htype⟩
  | error p text => exact ⟨_, _, _, .error _ _ _ _⟩

/-- Expressions are bound in order unless one has a member binding without a target. -/
theorem bindsAll_total (hfits : ctx.Fits base) (r : Option Receiver) (es : List Expr) {s : Store}
    (hs : s.Sound base) (hr : Receiver.Valid s.table r)
    (hstray : r = none → Expr.anyHasStray es = false) :
    ∃ bs s' ds, BindsAll ctx r es s bs s' ds := by
  cases es with
  | nil => exact ⟨_, _, _, .nil _ _⟩
  | cons e es =>
      simp only [Expr.anyHasStray, Bool.or_eq_false_iff] at hstray
      obtain ⟨b, s', ds, hb⟩ := binds_total hfits r e hs hr fun h => (hstray h).1
      obtain ⟨hsound, hextends⟩ := hb.sound hfits hs
      obtain ⟨bs, s'', ds', hbs⟩ := bindsAll_total hfits r es hsound (hr.mono hextends.table)
        fun h => (hstray h).2
      exact ⟨_, _, _, .cons _ _ _ _ b _ _ bs _ _ hb hbs⟩

/-- Initializers are bound in order unless one has a member binding without a target. -/
theorem bindsFields_total (hfits : ctx.Fits base) (r : Option Receiver) (index : Nat)
    (used : List String) (inits : List (Initializer Expr)) {s : Store} (hs : s.Sound base)
    (hr : Receiver.Valid s.table r)
    (hstray : r = none → Expr.initializerHasStray inits = false) :
    ∃ fields s' ds, BindsFields ctx r index used inits s fields s' ds := by
  cases inits with
  | nil => exact ⟨_, _, _, .nil _ _ _ _⟩
  | cons init rest =>
      obtain ⟨place, label, e⟩ := init
      simp only [Expr.initializerHasStray, Bool.or_eq_false_iff] at hstray
      obtain ⟨value, s', ds, hvalue⟩ := binds_total hfits r e hs hr fun h => (hstray h).1
      obtain ⟨hsound, hextends⟩ := hvalue.sound hfits hs
      obtain ⟨field, s'', ds', hfield⟩ := fieldRule_total ctx (hvalue.valid hfits hs) index used
        ⟨place, label, e⟩
      obtain ⟨hsound', hextends'⟩ := hfield.sound hfits hsound
      obtain ⟨others, s''', ds'', hothers⟩ := bindsFields_total hfits r (index + 1)
        (used ++ field.name.toList) rest hsound' (hr.mono (hextends.table.trans hextends'.table))
        fun h => (hstray h).2
      exact ⟨_, _, _, .cons _ _ _ _ _ _ value _ _ field _ _ others _ _ hvalue hfield hothers⟩

end

/-! ## Compilations -/

namespace Compilation

variable {p : Syntax.Program} {nullable : Option Bool} {file : Option String} {s : Store}

/-- The symbols of a program have types that the program declares. -/
theorem ofProgram_fits (p : Syntax.Program) (nullable : Option Bool) (file : Option String)
    (member : Option ContainingMember) :
    ((ofProgram p nullable file).context member).Fits (ofProgram p nullable file).table where
  table := (Declared.ofProgram_valid file p).base
  symbols := (Declared.ofProgram_valid file p).typed

/-- Every reachable store is sound. -/
theorem Reachable.sound (h : (ofProgram p nullable file).Reachable s) :
    s.Sound (ofProgram p nullable file).table :=
  have hbase := (Declared.ofProgram_valid file p).base
  ((Store.Sound.init hbase).reaches hbase h).1

/-- In a reachable store an expression whose member bindings have targets is bound. -/
theorem Reachable.binds (h : (ofProgram p nullable file).Reachable s)
    (member : Option ContainingMember) {e : Expr} (he : e.hasStray = false) :
    ∃ b s' ds, Binds ((ofProgram p nullable file).context member) none e s b s' ds :=
  binds_total (ofProgram_fits p nullable file member) none e h.sound (by simp [Receiver.Valid])
    fun _ => he

end Compilation

end AnonymousObjects
