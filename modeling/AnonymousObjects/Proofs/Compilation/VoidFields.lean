import AnonymousObjects.Proofs.Binding.MistakenValues
import AnonymousObjects.Proofs.Binding.SideBySide
import AnonymousObjects.Proofs.Compilation.PlacedRuns

/-!
# Properties of the type of no value

A call of a function without a result has a type nevertheless, and the field that it becomes has an
error type in place of that one. But a value with mistakes keeps its type, so the type of no value
may become that of a field. `VoidRule` says when: where a call of a function without a result has a
mistake in an argument, and nowhere else. `bindMembers_voidRules` says so of all fields and
properties after any run over members or expressions from source text.
-/

namespace AnonymousObjects

open AnonymousObjects.Action
open Syntax (Expr Initializer MemberDecl Program)

/-! ## The type of no value -/

/-- The type of no value. -/
def TypeTable.IsVoid (t : TypeTable) (id : TypeId) : Prop :=
  ∃ d, t.get? id = some d ∧ d.shape.isVoid = true

/-- Whether a type is that of no value can be computed. -/
instance (t : TypeTable) (id : TypeId) : Decidable (t.IsVoid id) :=
  decidable_of_iff (∃ d ∈ t.get? id, d.shape.isVoid = true) .rfl

/-- A node whose type is that of no value. -/
def BoundExpr.IsVoid (t : TypeTable) (b : BoundExpr) : Prop :=
  ∃ id, b.type? = some id ∧ t.IsVoid id

section

variable {t u : TypeTable} {id : TypeId} {d : TypeDef} {b : BoundExpr}

/-- A type is that of no value where its definition says so. -/
theorem TypeTable.isVoid_iff (hd : t.get? id = some d) : t.IsVoid id ↔ d.shape.isVoid = true := by
  simp [IsVoid, hd]

/-- A node with a type has no value where its type is that of no value. -/
theorem BoundExpr.isVoid_iff (hid : b.type? = some id) : b.IsVoid t ↔ t.IsVoid id := by
  simp [IsVoid, hid]

/-- A node without a type has not the type of no value. -/
theorem BoundExpr.not_isVoid (hnone : b.type? = none) : ¬ b.IsVoid t := by
  simp [IsVoid, hnone]

/-- The type of no value has a name in source text, so it is none of the types that are added. -/
theorem TypeTable.Grows.isVoid_iff (h : t.Grows u) : u.IsVoid id ↔ t.IsVoid id := by
  constructor
  · rintro ⟨⟨shape, name⟩, hd, hvoid⟩
    have hnamed : shape.isNamed = true := by
      cases shape <;> simp_all [TypeShape.isVoid, TypeShape.isNamed]
    exact ⟨_, h.get?_of_named hd hnamed, hvoid⟩
  · rintro ⟨d, hd, hvoid⟩
    exact ⟨d, h.get? hd, hvoid⟩

/-- A node has the type of no value in a larger table where it had before. -/
theorem TypeTable.Grows.isVoid_node_iff (h : t.Grows u) : b.IsVoid u ↔ b.IsVoid t := by
  simp [BoundExpr.IsVoid, h.isVoid_iff]

/-- Error types are not the type of no value. -/
theorem TypeTable.not_isVoid_ensureError (t : TypeTable) (name : String) :
    ¬ (t.ensureError name).2.IsVoid (t.ensureError name).1 := by
  simp [isVoid_iff (t.get?_ensureError name), TypeShape.isVoid]

end

/-! ## Fields -/

/-- What the type of no value makes of the type of a field. -/
structure VoidRule (symbols : SymbolTable) (t : TypeTable) (field : AnonymousField)
    (value : BoundExpr) : Prop where
  /-- It is the type of the field where a call with a mistake in an argument has it, and only
  there. -/
  kept : t.IsVoid field.type ↔ value.IsVoid t ∧ value.MistakenCall symbols
  /-- In place of that of any other value stands the error type of its name. -/
  replaced : value.IsVoid t → ¬ value.MistakenCall symbols →
    t.get? field.type = some ⟨.error, "void"⟩

section

variable {ctx : Context} {base : TypeTable} {s s' : Store} {value b : BoundExpr}
  {ds : List Diagnostic}

/-- The rule for fields of no value holds on in a table with more types. -/
theorem VoidRule.grows {symbols : SymbolTable} {t u : TypeTable} {field : AnonymousField}
    (h : VoidRule symbols t field value) (hg : t.Grows u) : VoidRule symbols u field value where
  kept := by rw [hg.isVoid_iff, hg.isVoid_node_iff, h.kept]
  replaced hvoid hsound := hg.get? (h.replaced (hg.isVoid_node_iff.mp hvoid) hsound)

/-- A field has the type of no value exactly if its value does and has a mistake. -/
theorem FieldTypeRule.isVoid_iff {span : Span} {id : TypeId} {faulty : Bool}
    (h : FieldTypeRule s value span id faulty s' ds) :
    s'.table.IsVoid id ↔ value.IsVoid s.table ∧ value.hasAnyErrors = true := by
  cases h with
  | faulty _ hfaulty hid => simp [hfaulty, BoundExpr.isVoid_iff hid]
  | faultyUntyped _ hnone =>
      simp [TypeTable.not_isVoid_ensureError, BoundExpr.not_isVoid hnone]
  | untyped hclean => simp [TypeTable.not_isVoid_ensureError, hclean]
  | void _ _ hclean => simp [TypeTable.not_isVoid_ensureError, hclean]
  | denied _ _ hclean _ hd hvoid => simp [TypeTable.isVoid_iff hd, hvoid, hclean]
  | usable _ _ hclean _ hd hvoid => simp [TypeTable.isVoid_iff hd, hvoid, hclean]

/-- A field of no value gets the error type named for it. -/
theorem FieldTypeRule.replaced {span : Span} {id : TypeId} {faulty : Bool}
    (h : FieldTypeRule s value span id faulty s' ds) (hvoid : value.IsVoid s.table)
    (hclean : value.hasAnyErrors = false) : s'.table.get? id = some ⟨.error, "void"⟩ := by
  cases h with
  | faulty _ hfaulty => simp [hclean] at hfaulty
  | faultyUntyped hfaulty => simp [hclean] at hfaulty
  | untyped _ hnone => exact absurd hvoid (BoundExpr.not_isVoid hnone)
  | void => exact TypeTable.get?_ensureError _ _
  | denied _ _ _ hid hd hshape =>
      simp [BoundExpr.isVoid_iff hid, TypeTable.isVoid_iff hd, hshape] at hvoid
  | usable _ _ _ hid hd hshape =>
      simp [BoundExpr.isVoid_iff hid, TypeTable.isVoid_iff hd, hshape] at hvoid

/-- A resolved field obeys the rule for fields of no value if mistaken values of no value are calls.
-/
theorem FieldRule.voidRule {index : Nat} {used : List String} {init : Initializer Expr}
    {field : ResolvedField} (h : FieldRule ctx index used init s value field s' ds)
    (hgrows : s.table.Grows s'.table)
    (hvalue : value.IsVoid s.table → value.hasAnyErrors = true → value.MistakenCall ctx.symbols) :
    VoidRule ctx.symbols s'.table field.field value := by
  cases h with
  | field _ _ _ _ _ _ _ _ htype _ =>
      refine ⟨?_, fun hvoid hsound => ?_⟩
      · rw [htype.isVoid_iff, hgrows.isVoid_node_iff]
        exact and_congr_right fun hvoid => ⟨hvalue hvoid, fun hcall => hcall.hasAnyErrors⟩
      · have hvoid := hgrows.isVoid_node_iff.mp hvoid
        exact htype.replaced hvoid (Bool.eq_false_iff.mpr (mt (hvalue hvoid) hsound))

/-! ## Creations -/

/-- The type of a creation is no type of no value. -/
theorem CreatedWithin.not_isVoid (hfits : ctx.Fits base) (hs : s.Sound base) (hs' : s'.Sound base)
    (h : CreatedWithin ctx s s' b) : ¬ b.IsVoid s'.table := by
  obtain ⟨_, _, type, _, _, _, _, rfl, hcreated⟩ := h.fits hfits hs
  obtain ⟨name, hname⟩ := hs'.registered type hcreated.registered
  rintro ⟨_, hid, hvoid⟩
  obtain rfl := Option.some.inj hid
  simp [TypeTable.isVoid_iff hname, TypeShape.isVoid] at hvoid

/-- In source text a call with a mistake in an argument is all that has the type of no value and a
mistake. -/
theorem Binds.mistakenCall (hfits : ctx.Fits base) {r : Option Receiver} {e : Expr}
    (h : Binds ctx r e s b s' ds) (hs : s.Sound base) (he : e.BindsFirst)
    (hvoid : b.IsVoid s'.table) (hfaulty : b.hasAnyErrors = true) :
    b.MistakenCall ctx.symbols := by
  have ⟨id, hid, _⟩ := hvoid
  rcases (h.settled he).typed id hfaulty hid with hcreation | hcall
  · have hroot : b ∈ b.walk := by simp [BoundExpr.walk_eq]
    exact absurd hvoid ((h.created b hroot hcreation).not_isVoid hfits hs (h.sound hfits hs).1)
  · exact hcall

/-- The fields of a creation obey the rule for fields of no value. -/
theorem BindsFields.voidRules (hfits : ctx.Fits base) {r : Option Receiver} {index : Nat}
    {used : List String} {inits : List (Initializer Expr)} {s s' : Store}
    {fields : List ResolvedField} {ds : List Diagnostic}
    (h : BindsFields ctx r index used inits s fields s' ds) (hs : s.Sound base)
    (hinits : ∀ init ∈ inits, init.value.BindsFirst) :
    ∀ f ∈ fields, VoidRule ctx.symbols s'.table f.field f.value := by
  match h with
  | .nil .. => simp
  | .cons _ _ _ init _ _ value _ _ field _ _ others _ _ hvalue hfield hothers =>
      obtain ⟨hinit, hrest⟩ := List.forall_mem_cons.mp hinits
      have hsound := (hvalue.sound hfits hs).1
      obtain ⟨hsound', hextends⟩ := hfield.sound hfits hsound
      intro f hf
      rcases List.mem_cons.mp hf with rfl | hf
      · rw [hfield.value_eq]
        exact (hfield.voidRule hextends.table (hvalue.mistakenCall hfits hs hinit)).grows
          (hothers.sound hfits hsound').2.table
      · exact hothers.voidRules hfits hsound' hrest f hf

/-- What holds of the fields of a creation made on the way. -/
theorem CreatedWithin.voidRules (hfits : ctx.Fits base) (hs : s.Sound base)
    (h : CreatedWithin ctx s s' b) (hb : b.source.BindsFirst) :
    List.Forall₂ (VoidRule ctx.symbols s'.table) b.fields b.children := by
  cases h with
  | creation r p new inits t fields u ds type v ht hfields htype hv =>
      have hsound := (hs.reaches hfits.table ht).1
      have hsource : (Expr.creation p new inits).BindsFirst := hb
      have hinits : ∀ init ∈ inits, init.value.BindsFirst := fun init hinit =>
        hsource.part (by simpa [Expr.parts] using ⟨init, hinit, rfl⟩)
      have hlater : u.Reaches s' := .trans (.single (.intern _ _ _ _ _ htype)) hv
      have hgrows := ((hfields.sound hfits hsound).1.reaches hfits.table hlater).2.table
      refine List.forall₂_map_left_iff.mpr (List.forall₂_map_right_iff.mpr ?_)
      refine List.forall₂_same.mpr fun f hf => ?_
      exact (hfields.voidRules hfits hsound hinits f hf).grows hgrows

/-- What is within an expression begins its conditional accesses with the members that they bind. -/
theorem Syntax.Expr.BindsFirst.within {d e : Expr} (h : e.BindsFirst) (hd : d.Within e) :
    d.BindsFirst :=
  fun p target access hwithin => h p target access (hwithin.trans hd)

/-- The field of a property. -/
theorem CreationFits.field_of_property {nullable : Option Bool} {type : AnonymousType}
    {fields : List AnonymousField} (h : CreationFits nullable s type fields) {property : Property}
    (hproperty : property ∈ type.properties) :
    ∃ f, fields[property.index]? = some f ∧ f.type = property.type := by
  obtain ⟨i, hi⟩ := List.getElem?_of_mem hproperty
  rw [h.built.properties, Store.getElem?_properties, h.key, AnonymousKey.ofFields,
    List.getElem?_map, Option.map_map, Option.map_eq_some_iff] at hi
  obtain ⟨f, hf, rfl⟩ := hi
  exact ⟨f, by simpa using hf, rfl⟩

/-- An entry of one list has a related entry at the same place of the other. -/
theorem exists_of_forall₂ {α β : Type} {R : α → β → Prop} {as : List α} {bs : List β}
    (h : List.Forall₂ R as bs) {i : Nat} {a : α} (ha : as[i]? = some a) :
    ∃ b, bs[i]? = some b ∧ R a b := by
  induction h generalizing i with
  | nil => simp at ha
  | cons hab _ ih =>
      cases i with
      | zero =>
          obtain rfl := Option.some.inj ha
          exact ⟨_, rfl, hab⟩
      | succ i => exact ih ha

/-- The property of a creation goes by the rule of its field. -/
theorem CreatedWithin.isVoid_property_iff (hfits : ctx.Fits base) (hs : s.Sound base)
    (h : CreatedWithin ctx s s' b) (hb : b.source.BindsFirst) {type : AnonymousType}
    (htype : b.anonymousType? = some type) {property : Property}
    (hproperty : property ∈ type.properties) :
    ∃ value, b.children[property.index]? = some value ∧
      (s'.table.IsVoid property.type ↔
        value.IsVoid s'.table ∧ value.MistakenCall ctx.symbols) := by
  have hrules := h.voidRules hfits hs hb
  obtain ⟨_, _, _, fields, _, _, _, rfl, hcreated⟩ := h.fits hfits hs
  obtain rfl := Option.some.inj htype
  obtain ⟨f, hf, hsame⟩ := hcreated.field_of_property hproperty
  obtain ⟨value, hvalue, hrule⟩ := exists_of_forall₂ hrules hf
  exact ⟨value, hvalue, hsame ▸ hrule.kept⟩

/-- What the type of no value makes of the types of fields and properties, where `nodes` are the
creations that there are. -/
structure Store.VoidRules (s : Store) (symbols : SymbolTable) (nodes : List BoundExpr) : Prop where
  /-- Every field goes by the rule. -/
  fields : ∀ node ∈ nodes, List.Forall₂ (VoidRule symbols s.table) node.fields node.children
  /-- A property has the type of no value exactly if a creation of its type has in its place a call
  with that type and with a mistake in an argument. -/
  properties : ∀ type ∈ s.registry.types, ∀ property ∈ type.properties,
    s.table.IsVoid property.type ↔
      ∃ node ∈ nodes, node.anonymousType? = some type ∧
        ∃ value, node.children[property.index]? = some value ∧
          value.IsVoid s.table ∧ value.MistakenCall symbols

end

/-! ## Runs -/

namespace Compilation

variable {source : List Char} {p : Program} {nullable : Option Bool} {file : Option String}

/-- The rules for the type of no value hold after every run over expressions from source text. -/
theorem BindsPlaced.voidRules {xs : List (Option ContainingMember × Expr)} {s : Store}
    {bs : List BoundExpr}
    (h : BindsPlaced (ofProgram p nullable file) xs (ofProgram p nullable file).store bs s)
    (hxs : ∀ x ∈ xs, x.2.FromSource) :
    s.VoidRules (ofProgram p nullable file).symbols (BoundExpr.creationsOf bs) := by
  have hstart : (ofProgram p nullable file).Reachable (ofProgram p nullable file).store := .refl
  -- Whatever expression of the run a node was made for, it stands in that expression, and so each
  -- conditional access in it begins with a bound member.
  have hcreated : ∀ node ∈ BoundExpr.creationsOf bs, node.source.BindsFirst ∧ ∃ member,
      CreatedWithin ((ofProgram p nullable file).context member) (ofProgram p nullable file).store s
        node := by
    intro node hnode
    obtain ⟨x, hx, hsource, hcreated⟩ := h.created hstart node hnode
    have hfirst := (hxs x hx).bindsFirst.within (Expr.within_of_mem_creations hsource)
    exact ⟨hfirst, x.1, hcreated⟩
  refine ⟨fun node hnode => ?_, fun type htype property hmem => ⟨fun hvoid => ?_, ?_⟩⟩
  · obtain ⟨hfirst, member, hnode⟩ := hcreated node hnode
    exact hnode.voidRules (ofProgram_fits p nullable file member) hstart.sound hfirst
  -- Every type of the registry is that of a creation, since the run begins without any.
  · obtain ⟨node, hnode, hnodeType⟩ := (h.accounts type htype).resolve_left List.not_mem_nil
    obtain ⟨hfirst, member, hmade⟩ := hcreated node hnode
    have hfits := ofProgram_fits p nullable file member
    obtain ⟨value, hvalue, hiff⟩ :=
      hmade.isVoid_property_iff hfits hstart.sound hfirst hnodeType hmem
    exact ⟨node, hnode, hnodeType, value, hvalue, hiff.mp hvoid⟩
  · rintro ⟨node, hnode, hnodeType, value, hvalue, hcall⟩
    obtain ⟨hfirst, member, hmade⟩ := hcreated node hnode
    obtain ⟨value', hvalue', hiff⟩ := hmade.isVoid_property_iff
      (ofProgram_fits p nullable file member) hstart.sound hfirst hnodeType hmem
    obtain rfl := Option.some.inj (hvalue.symm.trans hvalue')
    exact hiff.mpr hcall

end Compilation

end AnonymousObjects
