import AnonymousObjects.Proofs.Binding.Fields
import AnonymousObjects.Proofs.Binding.Repetition
import AnonymousObjects.Proofs.Compilation.Members

/-!
# The creations in bound trees

Every creation in a bound tree was made on the way from the store that binding started in to the one
that it left: its fields were resolved, and its type was interned (`Binds.created`). What is known
of a single creation when it is made is carried by this to the creations at any depth of any tree,
and `BindsMembers.created` does so for members and their local functions.
-/

namespace AnonymousObjects

open Syntax (Expr Initializer Literal Name)

namespace BoundExpr

/-- The fields of a creation. Other nodes have none. -/
def fields : BoundExpr → List AnonymousField
  | creation _ _ _ fields _ _ _ => fields
  | _ => []

/-- The nodes of several trees are those of each. -/
theorem mem_walkAll {node : BoundExpr} {bs : List BoundExpr} :
    node ∈ walkAll bs ↔ ∃ b ∈ bs, node ∈ b.walk := by
  induction bs with
  | nil => simp [walkAll]
  | cons b bs ih => simp [walkAll, ih]

/-- The nodes of a tree are its root and the nodes of the trees below. -/
theorem walk_eq (b : BoundExpr) : b.walk = b :: walkAll b.children := by
  cases b <;> simp [walk, children, walkAll]

/-- Every creation in a tree has a property. -/
def EachCreation (P : BoundExpr → Prop) (b : BoundExpr) : Prop :=
  ∀ node ∈ b.walk, node.isCreation = true → P node

variable {P Q : BoundExpr → Prop} {b : BoundExpr}

/-- A property of every creation may be weakened. -/
theorem EachCreation.imp (h : b.EachCreation P) (hPQ : ∀ node, P node → Q node) :
    b.EachCreation Q :=
  fun node hmem hcreation => hPQ node (h node hmem hcreation)

/-- The creations in a tree are its root, if that is one, and those in the trees below. -/
theorem EachCreation.of_children (hroot : b.isCreation = true → P b)
    (h : ∀ c ∈ b.children, c.EachCreation P) : b.EachCreation P := by
  intro node hmem hcreation
  rw [walk_eq] at hmem
  rcases List.mem_cons.mp hmem with rfl | hmem
  · exact hroot hcreation
  · obtain ⟨c, hc, hnode⟩ := mem_walkAll.mp hmem
    exact h c hc node hnode hcreation

/-- A node that is neither a creation nor has parts. -/
structure IsLeaf (b : BoundExpr) : Prop where
  plain : b.isCreation = false
  children : b.children = []

/-- A node without parts is no creation. -/
theorem EachCreation.of_leaf (h : b.IsLeaf) : b.EachCreation P :=
  .of_children (fun hcreation => by simp [h.plain] at hcreation) (by simp [h.children])

/-- A node that is no creation and has its parts among given trees. -/
structure Joins (b : BoundExpr) (parts : List BoundExpr) : Prop where
  plain : b.isCreation = false
  children : ∀ c ∈ b.children, c ∈ parts

/-- Every creation of a node has a property if every creation of its parts has. -/
theorem EachCreation.of_joins {parts : List BoundExpr} (h : b.Joins parts)
    (hparts : ∀ c ∈ parts, c.EachCreation P) : b.EachCreation P :=
  .of_children (fun hcreation => by simp [h.plain] at hcreation)
    fun c hc => hparts c (h.children c hc)

/-- Every creation of a node has a property if every creation of its one part has. -/
theorem EachCreation.of_part {part : BoundExpr} (h : b.Joins [part]) (hpart : part.EachCreation P) :
    b.EachCreation P :=
  .of_joins h (List.forall_mem_singleton.mpr hpart)

/-- Every creation of a node has a property if every creation of its two parts has. -/
theorem EachCreation.of_two_parts {left right : BoundExpr} (h : b.Joins [left, right])
    (hleft : left.EachCreation P) (hright : right.EachCreation P) : b.EachCreation P :=
  .of_joins h (List.forall_mem_cons.mpr ⟨hleft, List.forall_mem_singleton.mpr hright⟩)

/-- A bad node joins the parts that it keeps. -/
theorem bad_joins (source : Expr) (parts : List BoundExpr) : (bad source parts).Joins parts :=
  ⟨rfl, fun _ hc => hc⟩

end BoundExpr

/-! ## Parts of nodes -/

variable {ctx : Context} {base t : TypeTable} {s s' s₀ s₁ : Store} {b : BoundExpr}
  {ds : List Diagnostic}

/-- The node of a name has no parts. -/
theorem NameRule.leaf {name : Name} (h : NameRule ctx t name b ds) : b.IsLeaf := by
  cases h <;> exact ⟨rfl, rfl⟩

/-- The node of a static field has no parts. -/
theorem StaticFieldRule.leaf {source : Expr} {owner : TypeId} {name : Name}
    (h : StaticFieldRule ctx t source owner name b ds) : b.IsLeaf := by
  cases h <;> exact ⟨rfl, rfl⟩

/-- The node of a literal has no parts. -/
theorem LiteralRule.leaf {source : Expr} {l : Literal} (h : LiteralRule s source l b s') :
    b.IsLeaf := by
  cases h <;> exact ⟨rfl, rfl⟩

/-- The node of an instance field has its receiver as its part. -/
theorem InstanceFieldRule.joins {source : Expr} {receiver : BoundExpr} {name : Name}
    (h : InstanceFieldRule ctx t source receiver name b ds) : b.Joins [receiver] := by
  cases h <;> exact ⟨rfl, fun c hc => hc⟩

/-- The node of a binary expression joins its sides. -/
theorem BinaryRule.joins {source : Expr} {op : String} {left right : BoundExpr}
    (h : BinaryRule ctx source op s left right b s' ds) : b.Joins [left, right] := by
  cases h <;> exact ⟨rfl, fun c hc => hc⟩

/-- The node of a call joins its target and its arguments. -/
theorem CallRule.joins {source callee : Expr} {target : BoundExpr} {arguments : List BoundExpr}
    (h : CallRule ctx source callee target arguments b ds) : b.Joins (target :: arguments) := by
  cases h with
  | faulty => exact ⟨rfl, fun c hc => hc⟩
  | call => exact ⟨rfl, fun c hc => List.mem_cons_of_mem target hc⟩
  | arity => exact ⟨rfl, fun c hc => List.mem_cons_of_mem target hc⟩
  | notInvocable => exact ⟨rfl, fun c hc => hc⟩

/-! ## Creations on the way -/

/-- `CreatedWithin ctx s s' b` says that the creation `b` was made on the way from `s` to `s'`. -/
inductive CreatedWithin (ctx : Context) (s s' : Store) : BoundExpr → Prop where
  | creation (r p new inits t fields u ds type v) :
      s.Reaches t → BindsFields ctx r 0 [] inits t fields u ds →
      u.intern (fields.map (·.field)) (ctx.span new) = .ok (type, v) → v.Reaches s' →
      CreatedWithin ctx s s' (creationNode ctx (.creation p new inits) new fields type)

/-- What is created within a run is created within a longer one. -/
theorem CreatedWithin.widen (h : CreatedWithin ctx s s' b) (hbefore : s₀.Reaches s)
    (hafter : s'.Reaches s₁) : CreatedWithin ctx s₀ s₁ b := by
  cases h with
  | creation r p new inits t fields u ds type v ht hfields htype hv =>
      exact .creation r p new inits t fields u ds type v (hbefore.trans ht) hfields htype
        (hv.trans hafter)

/-- The creations of a part of the way are creations of the whole of it. -/
theorem BoundExpr.EachCreation.widen (h : b.EachCreation (CreatedWithin ctx s s'))
    (hbefore : s₀.Reaches s) (hafter : s'.Reaches s₁) :
    b.EachCreation (CreatedWithin ctx s₀ s₁) :=
  h.imp fun _ hnode => hnode.widen hbefore hafter

mutual

/-- Every creation in a bound tree was made on the way. -/
theorem Binds.created {r : Option Receiver} {e : Expr} {s s' : Store} {b : BoundExpr}
    {ds : List Diagnostic} (h : Binds ctx r e s b s' ds) :
    b.EachCreation (CreatedWithin ctx s s') := by
  match h with
  | .name _ _ _ _ _ hrule => exact .of_leaf hrule.leaf
  | .staticAccess _ _ _ _ _ _ _ _ _ hrule => exact .of_leaf hrule.leaf
  | .instanceAccess _ _ _ _ _ _ _ _ _ _ _ hvalue hrule =>
      exact .of_part hrule.joins hvalue.created
  | .staticPath _ _ _ _ _ _ _ _ _ hrule => exact .of_leaf hrule.leaf
  | .unknownOwner .. => exact .of_leaf ⟨rfl, rfl⟩
  | .longPath _ _ _ _ _ _ _ _ _ _ _ hinner _ =>
      exact .of_part (BoundExpr.bad_joins _ _) hinner.created
  | .faultyTarget _ _ _ _ _ _ _ _ hbound _ =>
      exact .of_part (BoundExpr.bad_joins _ _) hbound.created
  | .badReceiver _ _ _ _ _ _ _ _ _ hbound _ _ _ =>
      exact .of_part (BoundExpr.bad_joins _ _) hbound.created
  | .conditionalAccess _ p target access _ bound _ _ _ accessed _ _ lifted _ hbound _ _ haccess
      hlift =>
      have hjoins : (BoundExpr.conditionalAccess (.conditionalAccess p target access) bound accessed
          lifted).Joins [bound, accessed] := ⟨rfl, fun c hc => hc⟩
      exact .of_two_parts hjoins
        (hbound.created.widen .refl (haccess.reaches.trans hlift.reaches))
        (haccess.created.widen hbound.reaches hlift.reaches)
  | .memberBinding _ _ _ _ _ _ hrule => exact .of_part hrule.joins (.of_leaf ⟨rfl, rfl⟩)
  | .invocation _ _ _ _ _ target _ _ bound _ _ _ _ htarget hbound hrule =>
      refine .of_joins hrule.joins fun c hc => ?_
      rcases List.mem_cons.mp hc with rfl | hc
      · exact htarget.created.widen .refl hbound.reaches
      · exact (hbound.created c hc).widen htarget.reaches .refl
  | .literal _ _ _ _ _ _ hrule => exact .of_leaf hrule.leaf
  | .binary _ _ _ _ _ _ _ _ _ _ _ _ _ _ _ hleft hright hrule =>
      exact .of_two_parts hrule.joins
        (hleft.created.widen .refl (hright.reaches.trans hrule.reaches))
        (hright.created.widen hleft.reaches hrule.reaches)
  | .parenthesized _ _ _ _ _ _ _ hinner => exact hinner.created
  | .creation _ p new initializers _ resolved u ds type _ hresolved hintern =>
      refine .of_children (fun _ => ?_) fun c hc => ?_
      · exact .creation _ p new initializers s resolved u ds type s' .refl hresolved hintern .refl
      · obtain ⟨f, hf, rfl⟩ := List.mem_map.mp hc
        exact (hresolved.created f hf).widen .refl (.single (.intern _ _ _ _ _ hintern))
  | .error .. => exact .of_leaf ⟨rfl, rfl⟩

/-- Every creation in several expressions is made while they are bound. -/
theorem BindsAll.created {r : Option Receiver} {es : List Expr} {s s' : Store}
    {bs : List BoundExpr} {ds : List Diagnostic} (h : BindsAll ctx r es s bs s' ds) :
    ∀ b ∈ bs, b.EachCreation (CreatedWithin ctx s s') := by
  match h with
  | .nil _ _ => simp
  | .cons _ _ _ _ b _ _ bs _ _ hb hbs =>
      intro c hc
      rcases List.mem_cons.mp hc with rfl | hc
      · exact hb.created.widen .refl hbs.reaches
      · exact (hbs.created c hc).widen hb.reaches .refl

/-- Every creation in the values of fields is made while the fields are bound. -/
theorem BindsFields.created {r : Option Receiver} {index : Nat} {used : List String}
    {inits : List (Initializer Expr)} {s s' : Store} {fields : List ResolvedField}
    {ds : List Diagnostic} (h : BindsFields ctx r index used inits s fields s' ds) :
    ∀ f ∈ fields, f.value.EachCreation (CreatedWithin ctx s s') := by
  match h with
  | .nil _ _ _ _ => simp
  | .cons _ _ _ _ _ _ value _ _ field _ _ others _ _ hvalue hfield hothers =>
      intro f hf
      rcases List.mem_cons.mp hf with rfl | hf
      · rw [hfield.value_eq]
        exact hvalue.created.widen .refl (hfield.reaches.trans hothers.reaches)
      · exact (hothers.created f hf).widen (hvalue.reaches.trans hfield.reaches) .refl

end

/-! ## What is known of a creation -/

/-- The annotations of fields are those of their types in the table that binding leaves. -/
theorem BindsFields.nullability (hfits : ctx.Fits base) {r : Option Receiver} {index : Nat}
    {used : List String} {inits : List (Initializer Expr)} {s s' : Store}
    {fields : List ResolvedField} {ds : List Diagnostic}
    (h : BindsFields ctx r index used inits s fields s' ds) (hs : s.Sound base) :
    ∀ f ∈ fields,
      Nullability.ofType s'.table f.field.type ctx.nullable = .ok f.field.nullability := by
  match h with
  | .nil _ _ _ _ => simp
  | .cons _ _ _ _ _ _ _ _ _ field _ _ others _ _ hvalue hfield hothers =>
      have hsound := (hvalue.sound hfits hs).1
      have hsound' := (hfield.sound hfits hsound).1
      have hextends := (hothers.sound hfits hsound').2
      intro f hf
      rcases List.mem_cons.mp hf with rfl | hf
      · cases hfield with
        | field _ _ _ _ _ _ _ _ _ hnullability => exact hextends.table.nullability hnullability
      · exact hothers.nullability hfits hsound' f hf

/-- What is known of a creation in a store that holds its type: the members of the type are those of
the fields, whose types exist and decide on their annotations. -/
structure CreationFits (nullable : Option Bool) (s : Store) (type : AnonymousType)
    (fields : List AnonymousField) : Prop where
  registered : type ∈ s.registry.types
  key : type.key = AnonymousKey.ofFields fields
  built : type.Built
  typed : ∀ f ∈ fields, s.table.Has f.type
  annotated : ∀ f ∈ fields, Nullability.ofType s.table f.type nullable = .ok f.nullability

/-- A creation made during a run fits its anonymous type. -/
theorem CreatedWithin.fits (hfits : ctx.Fits base) (hs : s.Sound base)
    (h : CreatedWithin ctx s s' b) :
    ∃ e new type fields arguments declarations faulty,
      b = .creation e new type fields arguments declarations faulty ∧
        CreationFits ctx.nullable s' type fields := by
  cases h with
  | creation r p new inits t fields u ds type v ht hfields htype hv =>
      have hsound := (hs.reaches hfits.table ht).1
      have hsound' := (hfields.sound hfits hsound).1
      obtain ⟨hsound'', hextends⟩ := hsound'.step hfits.table (.intern _ _ _ _ _ htype)
      obtain ⟨hmem, hkey⟩ := hsound'.intern_spec hfits.table htype
      obtain ⟨_, hextends'⟩ := hsound''.reaches hfits.table hv
      have htable := (hextends.trans hextends').table
      refine ⟨_, _, type, fields.map (·.field), _, _, _, rfl, hextends'.types.subset hmem, hkey,
        hsound''.built type hmem, fun f hf => ?_, fun f hf => ?_⟩
      · obtain ⟨x, hx, rfl⟩ := List.mem_map.mp hf
        exact htable.has (hfields.has hfits hsound x hx)
      · obtain ⟨x, hx, rfl⟩ := List.mem_map.mp hf
        exact htable.nullability (hfields.nullability hfits hsound x hx)

/-! ## Members -/

namespace Compilation

open Syntax (MemberDecl Program)

variable {c : Compilation}

mutual

/-- Every creation in a bound member was made on the way. -/
theorem BindsMember.created {m : MemberDecl} {s s' : Store} {bound : BoundMember}
    (h : BindsMember c m s bound s') :
    ∀ x ∈ bound.creations, CreatedWithin (c.context (some x.1)) s s' x.2 := by
  match h with
  | .member position kind name exprs locals _ bs t ds bound _ hexprs hlocals =>
      intro x hx
      rcases List.mem_append.mp hx with hx | hx
      · obtain ⟨node, hnode, rfl⟩ := List.mem_map.mp hx
        obtain ⟨hwalk, hcreation⟩ := List.mem_filter.mp hnode
        obtain ⟨b, hb, hmem⟩ := BoundExpr.mem_walkAll.mp hwalk
        exact (hexprs.created b hb node hmem hcreation).widen .refl hlocals.reaches
      · exact (hlocals.created x hx).widen hexprs.reaches .refl

/-- Every creation in members is made while the members are bound. -/
theorem BindsMembers.created {ms : List MemberDecl} {s s' : Store} {bound : List BoundMember}
    (h : BindsMembers c ms s bound s') :
    ∀ x ∈ BoundMember.creationsOf bound, CreatedWithin (c.context (some x.1)) s s' x.2 := by
  match h with
  | .nil _ => simp [BoundMember.creationsOf]
  | .cons m ms _ bound t others _ hm hms =>
      intro x hx
      rcases List.mem_append.mp hx with hx | hx
      · exact (hm.created x hx).widen .refl hms.reaches
      · exact (hms.created x hx).widen hm.reaches .refl

end

/-- What is known of every creation in bound members. -/
theorem BindsMembers.fits {p : Program} {nullable : Option Bool} {file : Option String}
    {ms : List MemberDecl} {s s' : Store} {bound : List BoundMember}
    (h : BindsMembers (ofProgram p nullable file) ms s bound s')
    (hs : (ofProgram p nullable file).Reachable s) :
    ∀ x ∈ BoundMember.creationsOf bound, ∃ e new type fields arguments declarations faulty,
      x.2 = .creation e new type fields arguments declarations faulty ∧
        CreationFits nullable s' type fields :=
  fun x hx => (h.created x hx).fits (ofProgram_fits p nullable file (some x.1)) hs.sound

end Compilation

end AnonymousObjects
