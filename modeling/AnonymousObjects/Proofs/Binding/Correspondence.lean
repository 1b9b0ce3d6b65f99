import AnonymousObjects.Proofs.Compilation.Creations
import AnonymousObjects.Proofs.Syntax.Creations
import AnonymousObjects.Proofs.Types.Interning

/-!
# Creations of expressions and of bound trees

A bound tree drops parts of its expression and shares others, but it has a node for each creation,
in the order of the source (`Binds.source_creations`). The exception is the second part of a
conditional access whose target cannot be accessed: `Context.reached` leaves out the creations in
it. The types of the creations are all anonymous types that binding adds (`Binds.accounts`).
-/

namespace AnonymousObjects

open Syntax (Expr Initializer Literal Name)

namespace BoundExpr

/-- The creations in a tree, an outer one before those in it. -/
def creations (b : BoundExpr) : List BoundExpr :=
  b.walk.filter (·.isCreation)

/-- The creations in several trees. -/
def creationsOf (bs : List BoundExpr) : List BoundExpr :=
  (walkAll bs).filter (·.isCreation)

/-- The anonymous type of a creation. -/
def anonymousType? : BoundExpr → Option AnonymousType
  | creation _ _ type _ _ _ _ => some type
  | _ => none

variable {b : BoundExpr} {bs : List BoundExpr}

/-- No nodes, no creations. -/
@[simp] theorem creationsOf_nil : creationsOf [] = [] :=
  rfl

/-- The creations of the first node come first. -/
@[simp] theorem creationsOf_cons (b : BoundExpr) (bs : List BoundExpr) :
    creationsOf (b :: bs) = b.creations ++ creationsOf bs := by
  simp [creationsOf, creations, walkAll]

/-- The creations in a node that is none are those in the trees below. -/
theorem creations_of_plain (h : b.isCreation = false) : b.creations = creationsOf b.children := by
  rw [creations, creationsOf, walk_eq, List.filter_cons_of_neg (by simp [h])]

/-- A creation comes before the creations in it. -/
theorem creations_of_creation (h : b.isCreation = true) :
    b.creations = b :: creationsOf b.children := by
  rw [creations, creationsOf, walk_eq, List.filter_cons_of_pos h]

/-- A node without parts has no creations. -/
theorem IsLeaf.creations (h : b.IsLeaf) : b.creations = [] := by
  rw [creations_of_plain h.plain, h.children, creationsOf_nil]

/-- A bad node has the creations of its parts. -/
theorem creations_bad (source : Expr) (parts : List BoundExpr) :
    (bad source parts).creations = creationsOf parts :=
  creations_of_plain rfl

/-- The creations of the receiver come before those of the access. -/
theorem creations_conditionalAccess (source : Expr) (receiver access : BoundExpr)
    (type : Option TypeId) :
    (conditionalAccess source receiver access type).creations =
      receiver.creations ++ access.creations := by
  rw [creations_of_plain rfl]
  simp [children]

end BoundExpr

variable {ctx : Context} {base t : TypeTable} {s s' s'' w : Store} {b : BoundExpr}
  {ds : List Diagnostic}

/-! ## Parts of nodes -/

/-- The node of an instance field has the creations of its receiver. -/
theorem InstanceFieldRule.creations {source : Expr} {receiver : BoundExpr} {name : Name}
    (h : InstanceFieldRule ctx t source receiver name b ds) :
    b.creations = receiver.creations := by
  cases h <;> rw [BoundExpr.creations_of_plain rfl] <;> simp [BoundExpr.children]

/-- A call keeps its target unless that is a function, in which there are no creations. -/
theorem CallRule.creations {source callee : Expr} {target : BoundExpr} {arguments : List BoundExpr}
    (h : CallRule ctx source callee target arguments b ds) :
    b.creations = target.creations ++ BoundExpr.creationsOf arguments := by
  cases h with
  | faulty => rw [BoundExpr.creations_bad, BoundExpr.creationsOf_cons]
  | notInvocable => rw [BoundExpr.creations_bad, BoundExpr.creationsOf_cons]
  | call name f htarget =>
      have hleaf : target.IsLeaf := htarget ▸ ⟨rfl, rfl⟩
      rw [hleaf.creations, List.nil_append]
      exact BoundExpr.creations_of_plain rfl
  | arity name f htarget =>
      have hleaf : target.IsLeaf := htarget ▸ ⟨rfl, rfl⟩
      rw [hleaf.creations, List.nil_append]
      exact BoundExpr.creations_bad _ _

/-- The node of a binary expression has the creations of both sides. -/
theorem BinaryRule.creations {source : Expr} {op : String} {left right : BoundExpr}
    (h : BinaryRule ctx source op s left right b s' ds) :
    b.creations = left.creations ++ right.creations := by
  cases h <;> rw [BoundExpr.creations_of_plain rfl] <;> simp [BoundExpr.children]

/-- The node of a creation comes before the creations in its values. -/
theorem creations_creationNode (ctx : Context) (source : Expr) (new : Option Position)
    (resolved : List ResolvedField) (type : AnonymousType) :
    (creationNode ctx source new resolved type).creations =
      creationNode ctx source new resolved type ::
        BoundExpr.creationsOf (resolved.map (·.value)) :=
  BoundExpr.creations_of_creation rfl

/-! ## Creations that are reached -/

/-- What a type is once null is left out. -/
def TypeShape.withoutNull (id : TypeId) : TypeShape → TypeId
  | .nullable inner => inner
  | _ => id

/-- The type that a value has once it is known not to be null, if its type admits null. -/
def BoundExpr.typeWithoutNull? (t : TypeTable) (b : BoundExpr) : Option TypeId :=
  b.type?.bind fun id => (t.get? id).bind fun d =>
    if d.shape.admitsNull then some (d.shape.withoutNull id) else none

namespace Context

/-- The type of the value that is accessed in a conditional access to `target`, if anything is: the
target has no mistakes, and it has a type that admits null. -/
def accessedType? (ctx : Context) (s : Store) (r : Option Receiver) (target : Expr) :
    Option TypeId :=
  match (ctx.bindExpr r target s).result with
  | .error _ => none
  | .ok bound => if bound.hasAnyErrors then none else bound.typeWithoutNull? s.table

mutual

/-- The creations in an expression that are bound, in source order: all but those in the second part
of a conditional access whose target cannot be accessed. Targets are bound in the store `s`. -/
def reached (ctx : Context) (s : Store) : Option Receiver → Expr → List Expr
  | _, .identifier _ | _, .memberBinding _ _ | _, .literal _ _ | _, .error _ _ => []
  | r, .memberAccess _ target _ => reached ctx s r target
  | r, .qualifiedName _ left _ => reached ctx s r left
  | r, .conditionalAccess _ target access =>
    reached ctx s r target ++
      match ctx.accessedType? s r target with
      | some type => reached ctx s (some ⟨target, type⟩) access
      | none => []
  | r, .invocation _ callee arguments => reached ctx s r callee ++ reachedOf ctx s r arguments
  | r, .binary _ _ left right => reached ctx s r left ++ reached ctx s r right
  | r, .parenthesized _ inner => reached ctx s r inner
  | r, .creation p new initializers =>
    .creation p new initializers :: reachedOfInitializers ctx s r initializers

/-- The creations in several expressions that are bound. -/
def reachedOf (ctx : Context) (s : Store) (r : Option Receiver) : List Expr → List Expr
  | [] => []
  | e :: es => reached ctx s r e ++ reachedOf ctx s r es

/-- The creations in several initializers that are bound. -/
def reachedOfInitializers (ctx : Context) (s : Store) (r : Option Receiver) :
    List (Initializer Expr) → List Expr
  | [] => []
  | ⟨_, _, value⟩ :: rest => reached ctx s r value ++ reachedOfInitializers ctx s r rest

end

mutual

/-- Nothing is reached that is not there, and all in its order. -/
theorem reached_sublist (ctx : Context) (s : Store) :
    ∀ (r : Option Receiver) (e : Expr), (ctx.reached s r e).Sublist e.creations
  | _, .identifier _ | _, .memberBinding _ _ | _, .literal _ _ | _, .error _ _ => .refl _
  | r, .memberAccess _ target _ => reached_sublist ctx s r target
  | r, .qualifiedName _ left _ => reached_sublist ctx s r left
  | r, .conditionalAccess _ target access => by
      refine (reached_sublist ctx s r target).append ?_
      split
      · next type _ => exact reached_sublist ctx s (some ⟨target, type⟩) access
      · exact List.nil_sublist _
  | r, .invocation _ callee arguments =>
    (reached_sublist ctx s r callee).append (reachedOf_sublist ctx s r arguments)
  | r, .binary _ _ left right =>
    (reached_sublist ctx s r left).append (reached_sublist ctx s r right)
  | r, .parenthesized _ inner => reached_sublist ctx s r inner
  | r, .creation _ _ initializers =>
    (reachedOfInitializers_sublist ctx s r initializers).cons_cons _

/-- The creations reached in several expressions are among those of the expressions. -/
theorem reachedOf_sublist (ctx : Context) (s : Store) (r : Option Receiver) :
    ∀ es : List Expr, (ctx.reachedOf s r es).Sublist (Expr.creationsOf es)
  | [] => .refl _
  | e :: es => (reached_sublist ctx s r e).append (reachedOf_sublist ctx s r es)

/-- The creations reached in the values of initializers are among those of the initializers. -/
theorem reachedOfInitializers_sublist (ctx : Context) (s : Store) (r : Option Receiver) :
    ∀ inits : List (Initializer Expr),
      (ctx.reachedOfInitializers s r inits).Sublist (Expr.creationsOfInitializers inits)
  | [] => .refl _
  | ⟨_, _, value⟩ :: rest =>
    (reached_sublist ctx s r value).append (reachedOfInitializers_sublist ctx s r rest)

end

/-- There are no creations in the name of a type. -/
theorem reached_of_typeNamed {e : Expr} {id : TypeId} (h : ctx.typeNamed t e = some id)
    (s : Store) (r : Option Receiver) : ctx.reached s r e = [] := by
  cases e with
  | identifier name => rfl
  | _ => cases h

end Context

/-- What member bindings refer to is what is left of the target's type without null. -/
theorem ReceiverRule.eq {type : Option TypeId} (h : ReceiverRule t b type) :
    b.typeWithoutNull? t = type := by
  unfold BoundExpr.typeWithoutNull?
  cases h with
  | untyped hnone => simp [hnone]
  | nullable id inner name hid hd =>
      simp [hid, hd, TypeShape.admitsNull, TypeShape.withoutNull]
  | reference id d hid hd hreference =>
      obtain ⟨shape, name⟩ := d
      cases shape with
      | reference | anonymous => simp [hid, hd, TypeShape.admitsNull, TypeShape.withoutNull]
      | _ => cases hreference
  | other id d hid hd hother => simp [hid, hd, hother]

section

variable {r : Option Receiver} {target : Expr}

/-- Nothing is accessed in a target with mistakes. -/
theorem Binds.accessedType?_of_faulty (h : Binds ctx r target w b w ds)
    (hfaulty : b.hasAnyErrors = true) : ctx.accessedType? w r target = none := by
  rw [Context.accessedType?, (Context.yields_of_binds h).eq.1]
  exact if_pos hfaulty

/-- What is accessed is what member bindings refer to. -/
theorem Binds.accessedType?_eq {type : Option TypeId} (h : Binds ctx r target w b w ds)
    (hclean : b.hasAnyErrors = false) (hreceiver : ReceiverRule w.table b type) :
    ctx.accessedType? w r target = type := by
  rw [Context.accessedType?, (Context.yields_of_binds h).eq.1, ← hreceiver.eq]
  exact if_neg (by simp [hclean])

end

/-- What is reached in several expressions is what is reached in each of them. -/
theorem Context.reachedOf_eq {r : Option Receiver} {es : List Expr} {bs : List BoundExpr}
    (h : List.Forall₂ (fun e b => b.creations.map (·.source) = ctx.reached w r e) es bs) :
    (BoundExpr.creationsOf bs).map (·.source) = ctx.reachedOf w r es := by
  induction h with
  | nil => rfl
  | cons hb _ ih => rw [BoundExpr.creationsOf_cons, List.map_append, hb, ih, Context.reachedOf]

/-! ## Creations of the source -/

mutual

/-- The creations in a bound tree are those of its expression that are reached, each with a node and
in source order. Which are reached is the same for every store that holds what binding left. -/
theorem Binds.source_creations (hfits : ctx.Fits base) {r : Option Receiver} {e : Expr}
    {s s' w : Store} {b : BoundExpr} {ds : List Diagnostic} (h : Binds ctx r e s b s' ds)
    (hs : s.Sound base) (hw : w.Sound base) (hagain : s'.Extends w) :
    b.creations.map (·.source) = ctx.reached w r e := by
  -- The induction is on the derivation. A target is bound in `w` to the node that it has in the
  -- tree, so it can be accessed in the one if it could in the other.
  match h with
  | .name _ _ _ _ _ hrule => simp [hrule.leaf.creations, Context.reached]
  | .staticAccess _ _ _ _ _ _ _ _ howner hrule =>
      simp [hrule.leaf.creations, Context.reached, Context.reached_of_typeNamed howner]
  | .instanceAccess _ _ _ _ _ _ _ _ _ _ _ hvalue hrule =>
      rw [hrule.creations, Context.reached, hvalue.source_creations hfits hs hw hagain]
  | .staticPath _ _ _ _ _ _ _ _ howner hrule =>
      simp [hrule.leaf.creations, Context.reached, Context.reached_of_typeNamed howner]
  | .unknownOwner .. => simp [BoundExpr.creations_bad, Context.reached]
  | .longPath _ _ _ _ _ _ _ _ _ _ _ hinner _ =>
      simp [BoundExpr.creations_bad, Context.reached, hinner.source_creations hfits hs hw hagain]
  | .faultyTarget _ _ _ _ _ _ _ _ hbound hfaulty =>
      have hnone := (hbound.again hfits hs hw hagain).accessedType?_of_faulty hfaulty
      simp [BoundExpr.creations_bad, Context.reached, hnone,
        hbound.source_creations hfits hs hw hagain]
  | .badReceiver _ _ _ _ _ _ _ _ _ hbound hclean hreceiver _ =>
      have hnone := (hbound.again hfits hs hw hagain).accessedType?_eq hclean
        (hreceiver.grows hagain.table)
      simp [BoundExpr.creations_bad, Context.reached, hnone,
        hbound.source_creations hfits hs hw hagain]
  | .conditionalAccess _ _ _ _ _ _ _ _ _ _ _ _ _ _ hbound hclean hreceiver haccess hlift =>
      obtain ⟨hsound₁, _⟩ := hbound.sound hfits hs
      obtain ⟨hsound₂, hextends₂⟩ := haccess.sound hfits hsound₁
      -- The store in which the target was bound is two steps away from `s'`.
      have hagain₂ := (hsound₂.reaches hfits.table hlift.reaches).2.trans hagain
      have hagain₁ := hextends₂.trans hagain₂
      have hsome := (hbound.again hfits hs hw hagain₁).accessedType?_eq hclean
        (hreceiver.grows hagain₁.table)
      rw [BoundExpr.creations_conditionalAccess, List.map_append,
        hbound.source_creations hfits hs hw hagain₁,
        haccess.source_creations hfits hsound₁ hw hagain₂, Context.reached, hsome]
  | .memberBinding receiver _ _ _ _ _ hrule =>
      have hleaf : receiver.node.IsLeaf := ⟨rfl, rfl⟩
      rw [hrule.creations, hleaf.creations, Context.reached, List.map_nil]
  | .invocation _ _ _ _ _ _ _ _ _ _ _ _ _ htarget hbound hrule =>
      obtain ⟨hsound₁, _⟩ := htarget.sound hfits hs
      have hagain₁ := (hbound.sound hfits hsound₁).2.trans hagain
      rw [hrule.creations, List.map_append, htarget.source_creations hfits hs hw hagain₁,
        Context.reachedOf_eq (hbound.source_creations hfits hsound₁ hw hagain), Context.reached]
  | .literal _ _ _ _ _ _ hrule => simp [hrule.leaf.creations, Context.reached]
  | .binary _ _ _ _ _ _ _ _ _ _ _ _ _ _ _ hleft hright hrule =>
      obtain ⟨hsound₁, _⟩ := hleft.sound hfits hs
      obtain ⟨hsound₂, hextends₂⟩ := hright.sound hfits hsound₁
      have hagain₂ := (hsound₂.reaches hfits.table hrule.reaches).2.trans hagain
      rw [hrule.creations, List.map_append,
        hleft.source_creations hfits hs hw (hextends₂.trans hagain₂),
        hright.source_creations hfits hsound₁ hw hagain₂, Context.reached]
  | .parenthesized _ _ _ _ _ _ _ hinner =>
      rw [hinner.source_creations hfits hs hw hagain, Context.reached]
  | .creation _ _ _ _ _ _ _ _ _ _ hresolved hintern =>
      obtain ⟨hsound₁, _⟩ := hresolved.sound hfits hs
      have hagain₁ := (hsound₁.step hfits.table (.intern _ _ _ _ _ hintern)).2.trans hagain
      rw [creations_creationNode, List.map_cons,
        hresolved.source_creations hfits hs hw hagain₁, Context.reached]
      rfl
  | .error .. => simp [BoundExpr.creations_bad, Context.reached]

/-- The nodes of several expressions have the creations that are reached in them. -/
theorem BindsAll.source_creations (hfits : ctx.Fits base) {r : Option Receiver} {es : List Expr}
    {s s' w : Store} {bs : List BoundExpr} {ds : List Diagnostic}
    (h : BindsAll ctx r es s bs s' ds) (hs : s.Sound base) (hw : w.Sound base)
    (hagain : s'.Extends w) :
    List.Forall₂ (fun e b => b.creations.map (·.source) = ctx.reached w r e) es bs := by
  match h with
  | .nil _ _ => exact .nil
  | .cons _ _ _ _ _ _ _ _ _ _ hb hbs =>
      obtain ⟨hsound₁, _⟩ := hb.sound hfits hs
      have hagain₁ := (hbs.sound hfits hsound₁).2.trans hagain
      exact .cons (hb.source_creations hfits hs hw hagain₁)
        (hbs.source_creations hfits hsound₁ hw hagain)

/-- The values of fields have the creations that are reached in the initializers. -/
theorem BindsFields.source_creations (hfits : ctx.Fits base) {r : Option Receiver} {index : Nat}
    {used : List String} {inits : List (Initializer Expr)} {s s' w : Store}
    {fields : List ResolvedField} {ds : List Diagnostic}
    (h : BindsFields ctx r index used inits s fields s' ds) (hs : s.Sound base) (hw : w.Sound base)
    (hagain : s'.Extends w) :
    (BoundExpr.creationsOf (fields.map (·.value))).map (·.source) =
      ctx.reachedOfInitializers w r inits := by
  match h with
  | .nil _ _ _ _ => rfl
  | .cons _ _ _ _ _ _ _ _ _ _ _ _ _ _ _ hvalue hfield hothers =>
      obtain ⟨hsound₁, _⟩ := hvalue.sound hfits hs
      obtain ⟨hsound₂, hextends₂⟩ := hfield.sound hfits hsound₁
      have hagain₂ := (hothers.sound hfits hsound₂).2.trans hagain
      rw [List.map_cons, BoundExpr.creationsOf_cons, List.map_append, hfield.value_eq,
        hvalue.source_creations hfits hs hw (hextends₂.trans hagain₂),
        hothers.source_creations hfits hsound₂ hw hagain, Context.reachedOfInitializers]

end

/-! ## Anonymous types -/

/-- Every anonymous type of the second store was in the first one or is that of a creation. -/
def Accounts (s s' : Store) (nodes : List BoundExpr) : Prop :=
  ∀ a ∈ s'.registry.types, a ∈ s.registry.types ∨ ∃ node ∈ nodes, node.anonymousType? = some a

namespace Accounts

variable {nodes others : List BoundExpr}

/-- Where the registry stays the same, nothing is to be accounted for. -/
theorem of_registry (h : s'.registry = s.registry) : Accounts s s' nodes :=
  fun _ ha => .inl (h ▸ ha)

/-- What accounts for nodes and then for others accounts for them together. -/
theorem trans (h : Accounts s s' nodes) (h' : Accounts s' s'' others) :
    Accounts s s'' (nodes ++ others) := by
  intro a ha
  rcases h' a ha with ha | ⟨node, hnode, htype⟩
  · rcases h a ha with ha | ⟨node, hnode, htype⟩
    · exact .inl ha
    · exact .inr ⟨node, List.mem_append_left _ hnode, htype⟩
  · exact .inr ⟨node, List.mem_append_right _ hnode, htype⟩

/-- A step that leaves the anonymous types alone adds nothing. -/
theorem then_same (h : Accounts s s' nodes) (hsame : s''.registry = s'.registry) :
    Accounts s s'' nodes :=
  fun a ha => h a (hsame ▸ ha)

end Accounts

/-- Lifting a type leaves the registry alone. -/
theorem LiftRule.registry {type lifted : Option TypeId} (h : LiftRule s type lifted s') :
    s'.registry = s.registry := by
  cases h <;> rfl

/-- Binding a literal leaves the registry alone. -/
theorem LiteralRule.registry {source : Expr} {l : Literal} (h : LiteralRule s source l b s') :
    s'.registry = s.registry := by
  cases h <;> rfl

/-- Binding a binary node leaves the registry alone. -/
theorem BinaryRule.registry {source : Expr} {op : String} {left right : BoundExpr}
    (h : BinaryRule ctx source op s left right b s' ds) : s'.registry = s.registry := by
  cases h <;> rfl

/-- Resolving a field leaves the registry alone. -/
theorem FieldRule.registry {index : Nat} {used : List String} {init : Initializer Expr}
    {value : BoundExpr} {field : ResolvedField}
    (h : FieldRule ctx index used init s value field s' ds) : s'.registry = s.registry := by
  cases h with
  | field _ _ _ _ _ _ _ _ htype _ => cases htype <;> rfl

/-- The type that a list of fields gets is the only one that may be added. -/
theorem mem_types_of_intern {fields : List AnonymousField} {span : Span} {a c : AnonymousType}
    (h : s.intern fields span = .ok (a, s')) (hc : c ∈ s'.registry.types) :
    c ∈ s.registry.types ∨ c = a := by
  rcases Store.intern_cases h with ⟨rfl, -, -⟩ | hcreate
  · exact .inl hc
  · rw [(Store.created_of_create hcreate).types] at hc
    simpa using hc

mutual

/-- Binding adds no anonymous types but those of its creations. -/
theorem Binds.accounts {r : Option Receiver} {e : Expr} {s s' : Store} {b : BoundExpr}
    {ds : List Diagnostic} (h : Binds ctx r e s b s' ds) : Accounts s s' b.creations := by
  match h with
  | .name .. | .staticAccess .. | .staticPath .. | .unknownOwner .. | .memberBinding ..
  | .error .. => exact .of_registry rfl
  | .instanceAccess _ _ _ _ _ _ _ _ _ _ _ hvalue hrule =>
      rw [hrule.creations]
      exact hvalue.accounts
  | .longPath _ _ _ _ _ _ _ _ _ _ _ hinner _ =>
      simpa [BoundExpr.creations_bad] using hinner.accounts
  | .faultyTarget _ _ _ _ _ _ _ _ hbound _ =>
      simpa [BoundExpr.creations_bad] using hbound.accounts
  | .badReceiver _ _ _ _ _ _ _ _ _ hbound _ _ _ =>
      simpa [BoundExpr.creations_bad] using hbound.accounts
  | .conditionalAccess _ _ _ _ _ _ _ _ _ _ _ _ _ _ hbound _ _ haccess hlift =>
      rw [BoundExpr.creations_conditionalAccess]
      exact (hbound.accounts.trans haccess.accounts).then_same hlift.registry
  | .invocation _ _ _ _ _ _ _ _ _ _ _ _ _ htarget hbound hrule =>
      rw [hrule.creations]
      exact htarget.accounts.trans hbound.accounts
  | .literal _ _ _ _ _ _ hrule => exact .of_registry hrule.registry
  | .binary _ _ _ _ _ _ _ _ _ _ _ _ _ _ _ hleft hright hrule =>
      rw [hrule.creations]
      exact (hleft.accounts.trans hright.accounts).then_same hrule.registry
  | .parenthesized _ _ _ _ _ _ _ hinner => exact hinner.accounts
  | .creation _ _ _ _ _ _ _ _ _ _ hresolved hintern =>
      rw [creations_creationNode]
      -- A type of the store is an old one, one made for a value, or the one asked for here.
      intro a ha
      rcases mem_types_of_intern hintern ha with ha | rfl
      · exact (hresolved.accounts a ha).imp_right fun ⟨node, hnode, htype⟩ =>
          ⟨node, List.mem_cons_of_mem _ hnode, htype⟩
      · exact .inr ⟨_, List.mem_cons_self, rfl⟩

/-- Every anonymous type made for several expressions is that of a creation in their nodes. -/
theorem BindsAll.accounts {r : Option Receiver} {es : List Expr} {s s' : Store}
    {bs : List BoundExpr} {ds : List Diagnostic} (h : BindsAll ctx r es s bs s' ds) :
    Accounts s s' (BoundExpr.creationsOf bs) := by
  match h with
  | .nil _ _ => exact .of_registry rfl
  | .cons _ _ _ _ _ _ _ _ _ _ hb hbs =>
      rw [BoundExpr.creationsOf_cons]
      exact hb.accounts.trans hbs.accounts

/-- Every anonymous type made for fields is that of a creation in their values. -/
theorem BindsFields.accounts {r : Option Receiver} {index : Nat} {used : List String}
    {inits : List (Initializer Expr)} {s s' : Store} {fields : List ResolvedField}
    {ds : List Diagnostic} (h : BindsFields ctx r index used inits s fields s' ds) :
    Accounts s s' (BoundExpr.creationsOf (fields.map (·.value))) := by
  match h with
  | .nil _ _ _ _ => exact .of_registry rfl
  | .cons _ _ _ _ _ _ _ _ _ _ _ _ _ _ _ hvalue hfield hothers =>
      rw [List.map_cons, BoundExpr.creationsOf_cons, hfield.value_eq]
      exact (hvalue.accounts.then_same hfield.registry).trans hothers.accounts

end

end AnonymousObjects
