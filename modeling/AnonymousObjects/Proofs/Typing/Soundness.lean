import AnonymousObjects.Proofs.Binding.Alignment
import AnonymousObjects.Proofs.Binding.Reports
import AnonymousObjects.Proofs.Typing.Denotation

/-!
# Nodes without mistakes are typed

When an expression is bound without a mistake, the rules of typing give it the meaning of its node.
`Binds.typed` is the induction over the rules of binding; the lemmas before it say for each form of
expression that the rule of binding implies that of typing.
-/

namespace AnonymousObjects

open Syntax (Expr Initializer Literal Name)

variable {ctx : Context} {base : TypeTable} {s s' : Store} {b : BoundExpr} {m : Meaning}
  {ρ : Option Ty} {ds : List Diagnostic}

/-! ## Forms of expressions -/

/-- An expression names a type where it is the name of one that nothing shadows. -/
theorem typeNamed_eq_some_iff (hs : s.Sound base) {e : Expr} {owner : TypeId} :
    ctx.typeNamed s.table e = some owner ↔ ∃ name, e = .identifier name ∧
      ctx.symbols.isDeclared name.text = false ∧ base.lookup name.text = some owner := by
  cases e <;> simp [Context.typeNamed, hs.grows.lookup]

/-- A node of a declared type means a value of it. -/
theorem means_declared {id : TypeId} (htype : b.type? = some id) (hid : base.Has id) :
    Means base s b (.value (.declared id)) :=
  .value id _ htype (.declared id hid)

/-- A name that is bound without a mistake has the meaning of its node. -/
theorem NameRule.typed {name : Name} (hfits : ctx.Fits base) (h : NameRule ctx s.table name b ds)
    (hclean : b.hasAnyErrors = false) :
    ∃ m, Typed ctx base ρ (.identifier name) m ∧ Means base s b m := by
  cases h with
  | global g hg =>
      exact ⟨_, .global ρ name g hg, means_declared rfl (hfits.symbols.has_global hg)⟩
  | function f hg hf =>
      exact ⟨_, .function ρ name f hg hf, .methodGroup _ f rfl (hfits.symbols.has_result hf)⟩
  | typeName => simp [BoundExpr.hasAnyErrors] at hclean
  | undefined => simp [BoundExpr.hasAnyErrors] at hclean

/-- A static field that is bound without a mistake is one that its type declares. -/
theorem StaticFieldRule.found_of_clean {source : Expr} {owner : TypeId} {name : Name}
    (hfits : ctx.Fits base) (hs : s.Sound base)
    (h : StaticFieldRule ctx s.table source owner name b ds) (hclean : b.hasAnyErrors = false) :
    ∃ field, base.DeclaresField owner name.text true field ∧
      Means base s b (.value (.declared field.type)) := by
  cases h with
  | found field hfield =>
      rw [hs.grows.findField] at hfield
      exact ⟨field, TypeTable.findField_eq_some_iff.mp hfield,
        means_declared rfl (hfits.table.findField hfield).2⟩
  | missing => simp [BoundExpr.hasAnyErrors] at hclean

/-- An instance field that is bound without a mistake is one that the type of its receiver declares.
-/
theorem InstanceFieldRule.found_of_clean {source : Expr} {receiver : BoundExpr} {name : Name}
    (hfits : ctx.Fits base) (hs : s.Sound base)
    (h : InstanceFieldRule ctx s.table source receiver name b ds)
    (hclean : b.hasAnyErrors = false) (hreceiver : Means base s receiver m) :
    ∃ id field, m = .value (.declared id) ∧ base.DeclaresField id name.text false field ∧
      Means base s b (.value (.declared field.type)) := by
  cases h with
  | faulty => simp [BoundExpr.hasAnyErrors] at hclean
  | found id field _ hid hfield =>
      rw [hs.grows.findField] at hfield
      obtain ⟨howner, htype⟩ := hfits.table.findField hfield
      exact ⟨id, field, hreceiver.type_eq hfits.table hs hid (.declared id howner),
        TypeTable.findField_eq_some_iff.mp hfield, means_declared rfl htype⟩
  | missing => simp [BoundExpr.hasAnyErrors] at hclean

/-- A receiver that is found is one of the rules of typing. -/
theorem ReceiverRule.receives (hbase : base.Base) (hs : s.Sound base) {type : TypeId}
    (h : ReceiverRule s.table b (some type)) (hm : Means base s b m) :
    ∃ τ inner, m = .value τ ∧ Receives base τ inner ∧ Denotes base s type inner := by
  cases h with
  | nullable id _ name hid hd =>
      obtain ⟨τ, rfl, hτ⟩ := hm.of_type hid
      cases hτ.shaped hs hd with
      | declared hdeclared => simpa [TypeShape.isDeclared] using hbase.declared _ _ hdeclared
      | nullable value hvalue hhas =>
          obtain rfl := TypeShape.nullable.inj hvalue
          exact ⟨_, _, rfl, .nullable _, .declared _ hhas⟩
      | anonymous parts fields hparts => cases hparts
  | reference _ d hid hd href =>
      obtain ⟨τ, rfl, hτ⟩ := hm.of_type hid
      cases hτ.shaped hs hd with
      | declared hdeclared => exact ⟨_, _, rfl, .reference type d hdeclared href, hτ⟩
      | nullable value hvalue => simp [hvalue, TypeShape.isReference] at href
      | anonymous parts fields hparts => exact ⟨_, _, rfl, .anonymous fields, hτ⟩

/-- A type is lifted as by the rules of typing. -/
theorem LiftRule.lifts (hbase : base.Base) (hs : s.Sound base) {type lifted : Option TypeId}
    {τ : Option Ty} (h : LiftRule s type lifted s') (hτ : Option.Rel (Denotes base s) type τ) :
    ∃ τ', Lifts base τ τ' ∧ Option.Rel (Denotes base s') lifted τ' := by
  cases h with
  | untyped =>
      cases hτ
      exact ⟨none, .untyped, .none⟩
  | void id d hd hvoid =>
      cases hτ with
      | some hid =>
          cases hid.shaped hs hd with
          | declared hdeclared =>
              -- A void access keeps its type: being void, it is no value type.
              refine ⟨_, .other id d hdeclared ?_, .some hid⟩
              rintro heq
              simp [heq, TypeShape.isVoid] at hvoid
          | nullable value hvalue => simp [hvalue, TypeShape.isVoid] at hvoid
          | anonymous parts fields hparts => simp [hparts, TypeShape.isVoid] at hvoid
  | nullable id d lifted t _ _ hmade =>
      cases hτ with
      | some hid =>
          rcases TypeTable.nullableOf_cases hmade with ⟨e, he, hvalue, _⟩ | ⟨e, he, hother, hsame⟩
          · -- Only a value type gets a nullable type of its own, and value types are declared.
            have hdeclared := hs.grows.get?_of_named he (by rw [hvalue]; rfl)
            obtain rfl := hid.eq_declared hbase hs ⟨e, hdeclared⟩
            obtain ⟨name, hget⟩ := TypeTable.get?_nullableOf he hvalue hmade
            exact ⟨_, .value id e hdeclared hvalue, .some (.nullable lifted id name hget)⟩
          · obtain ⟨rfl, rfl⟩ := Prod.mk.inj hsame
            cases hid.shaped hs he with
            | declared hdeclared => exact ⟨_, .other _ e hdeclared hother, .some hid⟩
            | nullable value hvalue => exact ⟨_, .nullable value, .some hid⟩
            | anonymous parts fields hparts => exact ⟨_, .anonymous fields, .some hid⟩

/-- A conditional access means a value of the lifted type, or nothing besides. -/
theorem means_conditionalAccess {source : Expr} {receiver access : BoundExpr}
    {lifted : Option TypeId} {τ : Option Ty} (h : Option.Rel (Denotes base s) lifted τ) :
    Means base s (.conditionalAccess source receiver access lifted) (.ofType τ) := by
  cases h with
  | none => exact .nothing source receiver access rfl
  | some hid => exact .value _ _ rfl hid

/-- A node that can be part of a string means something that can. -/
theorem JoinRule.joins (hs : s.Sound base) (h : JoinRule s.table b true)
    (hb : Means base s b m) : Joins base m := by
  cases hb with
  | value id τ htype hid =>
      -- The rule for typed nodes computes its answer, so the answer is named before the cases.
      generalize hjoins : true = joins at h
      cases h with
      | literal source type l hb hnone => simp [hb, hnone, BoundExpr.type?] at htype
      | untyped hnone => simp [hnone] at htype
      | typed id' d hid' hd =>
          obtain rfl : id = id' := Option.some.inj (htype.symm.trans hid')
          simp only [Bool.true_eq, Bool.not_eq_true', Bool.or_eq_false_iff] at hjoins
          cases hid.shaped hs hd with
          | declared hdeclared => exact .declared id d hdeclared hjoins.1 hjoins.2
          | nullable value => exact .nullable value
          | anonymous parts fields => exact .anonymous fields
  | literal source l hb => exact .literal
  | methodGroup source f hb =>
      generalize hjoins : true = joins at h
      cases h with
      | literal source type l hb' => simp [hb] at hb'
      | untyped => cases hjoins
      | typed id d hid => simp [hb, BoundExpr.type?] at hid
  | nothing source receiver access hb =>
      generalize hjoins : true = joins at h
      cases h with
      | literal source type l hb' => simp [hb] at hb'
      | untyped => cases hjoins
      | typed id d hid => simp [hb, BoundExpr.type?] at hid

/-- A sum of some type has that type by the rules of typing. -/
theorem SumRule.adds (hfits : ctx.Fits base) (hs : s.Sound base) {left right : BoundExpr}
    {m m' : Meaning} {id : TypeId}
    (h : SumRule s.withSumTypes.table (s.table.ensure .int).1
      ((s.table.ensure .int).2.ensure .string).1 left right (some id))
    (hleft : Means base s left m) (hright : Means base s right m') :
    ∃ τ, Adds base m m' τ ∧ Denotes base s id τ := by
  obtain ⟨hint, hgetInt, hsame⟩ := hs.ensure hfits .int
  obtain ⟨hstring, hgetString, _⟩ := hs.ensure hfits .string
  rw [hs.withSumTypes hfits, hsame] at h
  cases h with
  | int hint' hint'' =>
      have hdenotes : Denotes base s _ _ := .declared _ ⟨_, hgetInt⟩
      rw [hleft.type_eq hfits.table hs hint' hdenotes,
        hright.type_eq hfits.table hs hint'' hdenotes]
      exact ⟨_, .int _ hint, hdenotes⟩
  | joined _ hsome hjoins hjoins' =>
      have hdenotes : Denotes base s _ _ := .declared _ ⟨_, hgetString⟩
      refine ⟨_, ?_, hdenotes⟩
      rcases hsome with htype | htype
      · rw [hleft.type_eq hfits.table hs htype hdenotes]
        exact .stringLeft _ m' hstring (hjoins'.joins hs hright)
      · rw [hright.type_eq hfits.table hs htype hdenotes]
        exact .stringRight _ m hstring (hjoins.joins hs hleft)

/-- A binary expression that is bound without a mistake is a sum by the rules of typing. -/
theorem BinaryRule.adds (hfits : ctx.Fits base) (hs : s.Sound base) {source : Expr} {op : String}
    {left right : BoundExpr} {m m' : Meaning}
    (h : BinaryRule ctx source op s left right b s' ds) (hclean : b.hasAnyErrors = false)
    (hleft : Means base s left m) (hright : Means base s right m') :
    ∃ τ, Adds base m m' τ ∧ Means base s' b (.value τ) := by
  cases h with
  | faulty => simp [BoundExpr.hasAnyErrors] at hclean
  | sum id _ _ hsum =>
      obtain ⟨τ, hadds, hid⟩ := hsum.adds hfits hs hleft hright
      rw [hs.withSumTypes hfits]
      exact ⟨τ, hadds, .value id τ rfl hid⟩
  | mistake => simp [BoundExpr.hasAnyErrors] at hclean

/-- A literal has the meaning of its node. -/
theorem LiteralRule.means (hfits : ctx.Fits base) (hs : s.Sound base) {p : Option Position}
    {l : Literal} (h : LiteralRule s (.literal p l) l b s') :
    ∃ m, Typed ctx base ρ (.literal p l) m ∧ Means base s' b m := by
  obtain ⟨rfl, ⟨rfl, hk⟩ | ⟨k, id, hk, hid, hhas, rfl⟩⟩ := h.spec hfits hs
  · exact ⟨_, .null ρ p l hk, .literal _ l rfl⟩
  · exact ⟨_, .literal ρ p l k id hk hid, means_declared rfl hhas⟩

/-! ## Fields of creations -/

/-- A name lent by the rules of typing is lent. -/
theorem Lends.lentName {e : Expr} {name : Name} (h : Lends e name) :
    e.lendsName = true ∧ e.lentName = some name := by
  induction h with
  | identifier => exact ⟨rfl, rfl⟩
  | memberAccess => exact ⟨rfl, rfl⟩
  | qualifiedName => exact ⟨rfl, rfl⟩
  | memberBinding => exact ⟨rfl, rfl⟩
  | conditionalAccess p target access name haccess ih =>
      refine ⟨?_, ih.2⟩
      cases haccess <;> simp_all [Expr.lendsName]

/-- A name that is lent is lent by the rules of typing. -/
theorem lends_of_lentName {name : Name} : ∀ {e : Expr}, e.lendsName = true →
    e.lentName = some name → Lends e name
  | .identifier _, _, h => Option.some.inj h ▸ .identifier _
  | .memberAccess _ _ _, _, h => Option.some.inj h ▸ .memberAccess _ _ _
  | .qualifiedName _ _ _, _, h => Option.some.inj h ▸ .qualifiedName _ _ _
  | .conditionalAccess _ _ access, hlends, h => by
      by_cases hbinding : ∃ q n, access = .memberBinding q n
      · obtain ⟨q, n, rfl⟩ := hbinding
        exact Option.some.inj h ▸ .memberBinding _ _ _ _
      · have haccess : access.lendsName = true := by
          cases access <;> simp_all [Expr.lendsName]
        exact .conditionalAccess _ _ _ _ (lends_of_lentName haccess h)

/-- The name of the field that an initializer makes is the one that binding takes. -/
theorem names_iff {init : Initializer Expr} {name : Name} :
    Names init name ↔ (ResolvedField.shapeOf init).2 = false ∧
      (ResolvedField.shapeOf init).1 = some name := by
  obtain ⟨place, label, e⟩ := init
  constructor
  · intro h
    cases h with
    | label => exact ⟨rfl, rfl⟩
    | lent _ _ _ hlends => simpa [ResolvedField.shapeOf] using hlends.lentName
  · rintro ⟨hnamed, hname⟩
    cases label with
    | some label =>
        obtain rfl := Option.some.inj hname
        exact .label _ _ _
    | none =>
        have hlends : e.lendsName = true := by simpa [ResolvedField.shapeOf] using hnamed
        exact .lent _ _ _ (lends_of_lentName hlends hname)

/-- A field that is resolved without a mistake has the name and the type of the rules of typing. -/
theorem FieldRule.typed {index : Nat} {used : List String} {init : Initializer Expr}
    {value : BoundExpr} {field : ResolvedField} (hs : s.Sound base)
    (h : FieldRule ctx index used init s value field s' ds) (hvalue : value.hasAnyErrors = false)
    (hfaulty : field.faulty = false) (hm : Means base s value m) :
    ∃ n τ, Names init n ∧ n.isIdentifier = true ∧ m = .value τ ∧ Usable base τ ∧
      field.field.name = n.text ∧ Denotes base s' field.field.type τ := by
  obtain ⟨⟨n, id, d, hclean⟩, rfl, _⟩ := h.of_clean hvalue hfaulty
  obtain ⟨τ, rfl, hid⟩ := hm.of_type hclean.type
  have hname := hclean.fieldName
  rw [← filter_shapeOf, Option.filter_eq_some_iff] at hname
  have husable := hclean.usable
  simp only [TypeShape.isUsable, Bool.not_eq_true', Bool.or_eq_false_iff] at husable
  refine ⟨n, τ, names_iff.mpr ⟨hclean.named, hname.1⟩, hname.2, rfl, ?_, hclean.fieldEq.1,
    hclean.fieldEq.2 ▸ hid⟩
  cases hid.shaped hs hclean.get with
  | declared hdeclared => exact .declared id d hdeclared husable.1.1 husable.1.2 husable.2
  | nullable value => exact .nullable value
  | anonymous parts fields => exact .anonymous fields

/-- The anonymous type of a list of fields stands for their names and types. -/
theorem DenotesKey.interned (hbase : base.Base) (hs : s.Sound base) {fields : List AnonymousField}
    {τs : List (String × Ty)} (h : DenotesKey base s (AnonymousKey.ofFields fields) τs)
    {span : Span} {type : AnonymousType} (htype : s.intern fields span = .ok (type, s')) :
    Denotes base s' type.id (.anonymous τs) := by
  obtain ⟨hmem, hkey⟩ := hs.intern_spec hbase htype
  have hext := (hs.step hbase (.intern _ _ _ _ _ htype)).2
  exact .anonymous _ type τs hmem rfl (hkey ▸ h.mono hext)

/-! ## Expressions -/

/-- What member bindings refer to stands for a type. -/
abbrev Receiver.Denotes (base : TypeTable) (s : Store) (r : Option Receiver) (ρ : Option Ty) :
    Prop :=
  Option.Rel (AnonymousObjects.Denotes base s) (r.map (·.type)) ρ

/-- A receiver means the same in a store with more types. -/
theorem Receiver.Denotes.mono {r : Option Receiver} (h : Receiver.Denotes base s r ρ)
    (hext : s.Extends s') : Receiver.Denotes base s' r ρ := by
  cases r with
  | none =>
      cases h
      exact .none
  | some x =>
      cases h with
      | some hid => exact .some (hid.mono hext)

/-- There are as many nodes as expressions. -/
theorem BindsAll.length {r : Option Receiver} {es : List Expr} {s s' : Store}
    {bs : List BoundExpr} {ds : List Diagnostic} (h : BindsAll ctx r es s bs s' ds) :
    bs.length = es.length := by
  induction es generalizing s bs ds with
  | nil =>
      cases h
      rfl
  | cons e es ih =>
      cases h with
      | cons _ _ _ _ _ _ _ _ _ _ _ hbs => simp [ih hbs]

mutual

/-- An expression that is bound without a mistake has the meaning of its node. -/
theorem Binds.typed (hfits : ctx.Fits base) {r : Option Receiver} {ρ : Option Ty} {e : Expr}
    {s s' : Store} {b : BoundExpr} {ds : List Diagnostic} (h : Binds ctx r e s b s' ds)
    (hs : s.Sound base) (hr : Receiver.Denotes base s r ρ) (hclean : b.hasAnyErrors = false) :
    ∃ m, Typed ctx base ρ e m ∧ Means base s' b m := by
  match h with
  | .name _ name _ _ _ hrule => exact hrule.typed hfits hclean
  | .staticAccess _ p target name _ owner _ _ howner hrule =>
      obtain ⟨type, rfl, hfresh, hlookup⟩ := (typeNamed_eq_some_iff hs).mp howner
      obtain ⟨field, hfield, hmeans⟩ := hrule.found_of_clean hfits hs hclean
      exact ⟨_, .staticAccess ρ p type name owner field hfresh hlookup hfield, hmeans⟩
  | .instanceAccess _ p target name _ value t _ _ _ _ hvalue hrule =>
      have hsound := (hvalue.sound hfits hs).1
      have hreceiver := hrule.receiver_clean hclean
      obtain ⟨m, htyped, hm⟩ := Binds.typed hfits hvalue hs hr hreceiver
      obtain ⟨id, field, rfl, hfield, hmeans⟩ := hrule.found_of_clean hfits hsound hclean hm
      exact ⟨_, .instanceAccess ρ p target name id field htyped hfield, hmeans⟩
  | .staticPath _ p left right _ owner _ _ howner hrule =>
      obtain ⟨type, rfl, hfresh, hlookup⟩ := (typeNamed_eq_some_iff hs).mp howner
      obtain ⟨field, hfield, hmeans⟩ := hrule.found_of_clean hfits hs hclean
      exact ⟨_, .staticPath ρ p type right owner field hfresh hlookup hfield, hmeans⟩
  | .unknownOwner .. => simp [BoundExpr.hasAnyErrors] at hclean
  | .longPath .. => simp [BoundExpr.hasAnyErrors] at hclean
  | .faultyTarget .. => simp [BoundExpr.hasAnyErrors] at hclean
  | .badReceiver .. => simp [BoundExpr.hasAnyErrors] at hclean
  | .conditionalAccess _ p target access _ bound t _ type accessed u _ lifted _ hbound _ hreceiver
      haccess hlift =>
      simp only [BoundExpr.hasAnyErrors, Bool.or_eq_false_iff] at hclean
      have hsound := (hbound.sound hfits hs).1
      have hsound' := (haccess.sound hfits hsound).1
      obtain ⟨m, htarget, hm⟩ := Binds.typed hfits hbound hs hr hclean.1
      -- Inside the access, member bindings refer to the target and no longer to `r`.
      obtain ⟨τ, inner, rfl, hinner, htype⟩ := hreceiver.receives hfits.table hsound hm
      have hr' : Receiver.Denotes base t (some ⟨target, type⟩) (some inner) := .some htype
      obtain ⟨m', htyped, hm'⟩ := Binds.typed hfits haccess hsound hr' hclean.2
      obtain ⟨τ', hlifts, hlifted⟩ := hlift.lifts hfits.table hsound' hm'.type
      exact ⟨_, .conditionalAccess ρ p target access τ inner m' τ' htarget hinner htyped hlifts,
        means_conditionalAccess hlifted⟩
  | .memberBinding x p name _ _ _ hrule =>
      cases hr with
      | some hid =>
          have hm : Means base s x.node (.value _) := .value x.type _ rfl hid
          obtain ⟨id, field, heq, hfield, hmeans⟩ := hrule.found_of_clean hfits hs hclean hm
          obtain rfl := Meaning.value.inj heq
          exact ⟨_, .memberBinding p name id field hfield, hmeans⟩
  | .invocation _ p callee arguments _ target t _ bound u _ _ _ htarget hbound hrule =>
      -- Parentheses leave no node, so the callee is a function however it is written.
      obtain ⟨name, f, rfl, harity, rfl⟩ := hrule.call_of_clean hclean
      obtain ⟨hsound, hext⟩ := htarget.sound hfits hs
      obtain ⟨m, htyped, hm⟩ := Binds.typed hfits htarget hs hr rfl
      have harguments := BindsAll.typed hfits hbound hsound (hr.mono hext)
        (by simpa [BoundExpr.hasAnyErrors] using hclean)
      obtain ⟨rfl, hresult⟩ := hm.methodGroup_inv
      rw [hbound.length] at harity
      exact ⟨_, .invocation ρ p callee arguments f htyped harguments harity,
        means_declared rfl hresult⟩
  | .literal _ p l _ _ _ hrule => exact hrule.means hfits hs
  | .binary _ p op left right _ boundLeft t _ boundRight u _ _ _ _ hleft hright hrule =>
      obtain ⟨hcleanLeft, hcleanRight⟩ := hrule.parts_clean hclean
      obtain ⟨hsound, hext⟩ := hleft.sound hfits hs
      obtain ⟨hsound', hext'⟩ := hright.sound hfits hsound
      obtain ⟨m, htyped, hm⟩ := Binds.typed hfits hleft hs hr hcleanLeft
      obtain ⟨m', htyped', hm'⟩ := Binds.typed hfits hright hsound (hr.mono hext) hcleanRight
      obtain ⟨τ, hadds, hmeans⟩ := hrule.adds hfits hsound' hclean (hm.mono hext') hm'
      exact ⟨_, .binary ρ p op left right m m' τ htyped htyped' hadds, hmeans⟩
  | .parenthesized _ p inner _ _ _ _ hinner =>
      obtain ⟨m, htyped, hm⟩ := Binds.typed hfits hinner hs hr hclean
      exact ⟨m, .parenthesized ρ p inner m htyped, hm⟩
  | .creation _ p new initializers _ resolved t _ type _ hresolved htype =>
      obtain ⟨hfields, hallowed⟩ := (creationNode_hasAnyErrors _ _ _ _ _).mp hclean
      have hsound := (hresolved.sound hfits hs).1
      obtain ⟨fields, htyped, hkey⟩ := BindsFields.typed hfits hresolved hs hr hfields
      -- The names differ because no field takes a name that is in use.
      refine ⟨_, .creation ρ p new initializers fields hallowed htyped ?_,
        .value type.id _ rfl (hkey.interned hfits.table hsound htype)⟩
      rw [← hkey.names]
      simpa [AnonymousKey.ofFields, Function.comp_def] using hresolved.nodup
  | .error .. => simp [BoundExpr.hasAnyErrors] at hclean

/-- Expressions that are bound without a mistake are all typed. -/
theorem BindsAll.typed (hfits : ctx.Fits base) {r : Option Receiver} {ρ : Option Ty}
    {es : List Expr} {s s' : Store} {bs : List BoundExpr} {ds : List Diagnostic}
    (h : BindsAll ctx r es s bs s' ds) (hs : s.Sound base) (hr : Receiver.Denotes base s r ρ)
    (hclean : BoundExpr.anyHasErrors bs = false) : TypedAll ctx base ρ es := by
  match h with
  | .nil .. => exact .nil ρ
  | .cons _ e es _ b t _ bs _ _ hb hbs =>
      simp only [BoundExpr.anyHasErrors, Bool.or_eq_false_iff] at hclean
      obtain ⟨hsound, hext⟩ := hb.sound hfits hs
      obtain ⟨m, htyped, _⟩ := Binds.typed hfits hb hs hr hclean.1
      exact .cons ρ e es m htyped (BindsAll.typed hfits hbs hsound (hr.mono hext) hclean.2)

/-- Fields that are resolved without a mistake are typed. -/
theorem BindsFields.typed (hfits : ctx.Fits base) {r : Option Receiver} {ρ : Option Ty}
    {index : Nat} {used : List String} {inits : List (Initializer Expr)} {s s' : Store}
    {fields : List ResolvedField} {ds : List Diagnostic}
    (h : BindsFields ctx r index used inits s fields s' ds) (hs : s.Sound base)
    (hr : Receiver.Denotes base s r ρ) (hclean : FieldsClean fields) :
    ∃ τs, TypedFields ctx base ρ inits τs ∧
      DenotesKey base s' (AnonymousKey.ofFields (fields.map (·.field))) τs := by
  match h with
  | .nil .. => exact ⟨[], .nil ρ, .nil⟩
  | .cons _ _ _ init rest _ value t _ field u _ others _ _ hvalue hfield hothers =>
      obtain ⟨⟨hcleanValue, hfaulty⟩, hcleanOthers⟩ := fieldsClean_cons.mp hclean
      rw [hfield.value_eq] at hcleanValue
      obtain ⟨hsound, hext⟩ := hvalue.sound hfits hs
      obtain ⟨hsound', hext'⟩ := hfield.sound hfits hsound
      obtain ⟨m, htyped, hm⟩ := Binds.typed hfits hvalue hs hr hcleanValue
      obtain ⟨n, τ, hnames, hidentifier, rfl, husable, hname, hid⟩ :=
        hfield.typed hsound hcleanValue hfaulty hm
      obtain ⟨τs, htypedOthers, hkey⟩ := BindsFields.typed hfits hothers hsound'
        (hr.mono (hext.trans hext')) hcleanOthers
      refine ⟨_, .cons ρ init rest n τ τs hnames hidentifier htyped husable htypedOthers, ?_⟩
      have hlater := (hothers.sound hfits hsound').2
      simp only [List.map_cons, AnonymousKey.ofFields, hname]
      exact .cons _ _ _ _ _ (hid.mono hlater) hkey

end

end AnonymousObjects
