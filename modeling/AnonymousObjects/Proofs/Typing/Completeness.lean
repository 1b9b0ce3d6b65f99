import AnonymousObjects.Proofs.Typing.Soundness
import AnonymousObjects.Text.NameTable

/-!
# Typed expressions are bound without mistakes

An expression to which the rules of typing give a meaning is bound to a node of that meaning,
without a mistake. `Typed.binds` is the induction over the rules of typing. With the other
direction, `bindExpr_iff_hasType` says that binding an expression from source text decides its type.
-/

namespace AnonymousObjects

open Syntax (Expr Initializer Name Program)

variable {ctx : Context} {base : TypeTable} {s s' : Store} {b : BoundExpr} {m m' : Meaning}
  {τ τ' : Ty} {ρ : Option Ty}

/-! ## Nodes of a meaning -/

/-- The type of a node that means a value stands for that of the value. -/
theorem Means.value_inv (h : Means base s b (.value τ)) :
    ∃ id, b.type? = some id ∧ Denotes base s id τ := by
  cases h with
  | value id _ htype hid => exact ⟨id, htype, hid⟩

/-- A node that means a value of a declared type has that type. -/
theorem Means.declared_inv {id : TypeId} (h : Means base s b (.value (.declared id))) :
    b.type? = some id ∧ base.Has id := by
  obtain ⟨id', htype, hid⟩ := h.value_inv
  obtain ⟨rfl, hhas⟩ := hid.declared_inv
  exact ⟨htype, hhas⟩

/-- What means something is readable. -/
theorem Typed.isError_eq_false {e : Expr} (h : Typed ctx base ρ e m) : e.isError = false := by
  cases h <;> rfl

/-- What means something names no type. -/
theorem Typed.typeNamed_eq_none {t : TypeTable} {e : Expr} (h : Typed ctx base ρ e m) :
    ctx.typeNamed t e = none := by
  cases h <;> simp_all [Context.typeNamed, SymbolTable.isDeclared]

/-- What a conditional access may be made to is bound to a node with a receiver. -/
theorem Receives.receiverRule (hs : s.Sound base) {inner : Ty} (h : Receives base τ inner)
    (hm : Means base s b (.value τ)) :
    ∃ type, ReceiverRule s.table b (some type) ∧ Denotes base s type inner := by
  obtain ⟨id, htype, hid⟩ := hm.value_inv
  cases h with
  | reference _ d hd href =>
      obtain ⟨rfl, _⟩ := hid.declared_inv
      exact ⟨id, .reference id d htype (hs.grows.get? hd) href, hid⟩
  | anonymous fields =>
      obtain ⟨d, hd⟩ := hid.has hs
      cases hid.shaped hs hd with
      | anonymous parts _ hparts =>
          exact ⟨id, .reference id d htype hd (by rw [hparts]; rfl), hid⟩
  | nullable value =>
      cases hid with
      | nullable _ _ name hget =>
          obtain ⟨_, hvalue⟩ := hs.nullables id value name hget
          exact ⟨value, .nullable id value name htype hget, .declared value ⟨_, hvalue⟩⟩

/-- There is one type that a type is lifted to. -/
theorem Lifts.unique {type lifted lifted' : Option Ty} (h : Lifts base type lifted)
    (h' : Lifts base type lifted') : lifted = lifted' := by
  cases h <;> cases h' <;> simp_all

/-- What can be part of a string is bound to a node that can. -/
theorem Joins.joinRule (hs : s.Sound base) (h : Joins base m) (hm : Means base s b m) :
    JoinRule s.table b true := by
  cases h with
  | literal =>
      cases hm with
      | literal source l hb => exact .literal source none l hb rfl
  | declared id d hd hvoid hunsafe =>
      have hrule := JoinRule.typed id d hm.declared_inv.1 (hs.grows.get? hd)
      simpa [hvoid, hunsafe] using hrule
  | nullable value =>
      obtain ⟨id, htype, hid⟩ := hm.value_inv
      obtain ⟨d, hd⟩ := hid.has hs
      have hrule := JoinRule.typed id d htype hd
      cases hid.shaped hs hd with
      | nullable _ hvalue => simpa [hvalue, TypeShape.isVoid, TypeShape.isUnsafe] using hrule
  | anonymous fields =>
      obtain ⟨id, htype, hid⟩ := hm.value_inv
      obtain ⟨d, hd⟩ := hid.has hs
      have hrule := JoinRule.typed id d htype hd
      cases hid.shaped hs hd with
      | anonymous parts _ hparts => simpa [hparts, TypeShape.isVoid, TypeShape.isUnsafe] using hrule

/-- A sum that has a type is bound to a node of that type. -/
theorem Adds.sumRule (hfits : ctx.Fits base) (hs : s.Sound base) {left right : BoundExpr}
    (h : Adds base m m' τ) (hleft : Means base s left m) (hright : Means base s right m') :
    ∃ id, SumRule s.withSumTypes.table (s.table.ensure .int).1
      ((s.table.ensure .int).2.ensure .string).1 left right (some id) ∧ Denotes base s id τ := by
  obtain ⟨hint, hgetInt, hsame⟩ := hs.ensure hfits .int
  obtain ⟨hstring, hgetString, _⟩ := hs.ensure hfits .string
  rw [hs.withSumTypes hfits, hsame]
  -- A sum with a string in it must not be taken for one of two integers.
  have hne : (s.table.ensure .int).1 ≠ (s.table.ensure .string).1 := by
    intro heq
    rw [heq, hgetString] at hgetInt
    simp [Builtin.shape] at hgetInt
  have hdenotes : Denotes base s (s.table.ensure .string).1 _ := .declared _ ⟨_, hgetString⟩
  have hself : Joins base (.value (.declared (s.table.ensure .string).1)) :=
    .declared _ _ hgetString rfl rfl
  cases h with
  | int id hid =>
      obtain rfl := Option.some.inj (hid.symm.trans hint)
      exact ⟨_, .int hleft.declared_inv.1 hright.declared_inv.1, .declared _ ⟨_, hgetInt⟩⟩
  | stringLeft id _ hid hjoins =>
      obtain rfl := Option.some.inj (hid.symm.trans hstring)
      have htype := hleft.declared_inv.1
      refine ⟨_, .joined ?_ (.inl htype) (hself.joinRule hs hleft) (hjoins.joinRule hs hright),
        hdenotes⟩
      rintro ⟨hleft', _⟩
      exact hne (Option.some.inj (hleft'.symm.trans htype))
  | stringRight id _ hid hjoins =>
      obtain rfl := Option.some.inj (hid.symm.trans hstring)
      have htype := hright.declared_inv.1
      refine ⟨_, .joined ?_ (.inr htype) (hjoins.joinRule hs hleft) (hself.joinRule hs hright),
        hdenotes⟩
      rintro ⟨_, hright'⟩
      exact hne (Option.some.inj (hright'.symm.trans htype))

/-! ## Fields of creations -/

/-- A usable value with a name that is not in use makes a field without a mistake. -/
theorem Usable.fieldRule (ctx : Context) (index : Nat) (hs : s.Sound base) (h : Usable base τ)
    {used : List String} {init : Initializer Expr} {n : Name} (hname : Names init n)
    (hidentifier : n.isIdentifier = true) (hfresh : n.text ∉ used)
    (hclean : b.hasAnyErrors = false) (herror : init.value.isError = false)
    (hm : Means base s b (.value τ)) :
    ∃ field, FieldRule ctx index used init s b field s [] ∧ field.faulty = false ∧
      field.name = some n.text ∧ field.field.name = n.text ∧
      Denotes base s field.field.type τ := by
  obtain ⟨id, htype, hid⟩ := hm.value_inv
  obtain ⟨d, hd⟩ := hid.has hs
  -- A usable type denotes a declared one that may be in a field, a nullable or an anonymous one;
  -- the entry in the table has that shape.
  have hshape : d.shape.isVoid = false ∧ d.shape.isUnsafe = false ∧
      d.shape.isRestricted = false := by
    cases h with
    | declared _ e he hvoid hunsafe hrestricted =>
        obtain ⟨rfl, _⟩ := hid.declared_inv
        obtain rfl : d = e := Option.some.inj (hd.symm.trans (hs.grows.get? he))
        exact ⟨hvoid, hunsafe, hrestricted⟩
    | nullable value =>
        cases hid.shaped hs hd with
        | nullable _ hvalue =>
            simp [hvalue, TypeShape.isVoid, TypeShape.isUnsafe, TypeShape.isRestricted]
    | anonymous fields =>
        cases hid.shaped hs hd with
        | anonymous parts _ hparts =>
            simp [hparts, TypeShape.isVoid, TypeShape.isUnsafe, TypeShape.isRestricted]
  obtain ⟨hnamed, hshown⟩ := names_iff.mp hname
  have hfilter : (ResolvedField.shapeOf init).1.filter (·.isIdentifier) = some n := by
    simp [hshown, hidentifier]
  obtain ⟨nullability, hnullability⟩ := nullability_total ⟨d, hd⟩ ctx.nullable
  refine ⟨_, .field (some n.text) [] id false s [] nullability (.kept n hfilter hfresh)
    (.usable id d hclean htype hd hshape.1 (by simp [hshape])) hnullability, ?_, rfl, rfl, hid⟩
  simp [hnamed, herror]

/-! ## Expressions -/

mutual

/-- An expression that means something is bound to a node of that meaning, without a mistake. -/
theorem Typed.binds (hfits : ctx.Fits base) {ρ : Option Ty} {e : Expr} {m : Meaning}
    (h : Typed ctx base ρ e m) {r : Option Receiver} {s : Store} (hs : s.Sound base)
    (hr : Receiver.Denotes base s r ρ) :
    ∃ b s' ds, Binds ctx r e s b s' ds ∧ b.hasAnyErrors = false ∧ Means base s' b m := by
  match h with
  | .literal _ p l k id hk hid =>
      obtain ⟨b, s', hrule⟩ := literalRule_total s (.literal p l) l
      refine ⟨b, s', [], .literal r p l s b s' hrule, hrule.clean, ?_⟩
      obtain ⟨rfl, ⟨_, hnone⟩ | ⟨k', id', hk', hid', hhas, rfl⟩⟩ := hrule.spec hfits hs
      · rw [hk] at hnone
        cases hnone
      · obtain rfl := Option.some.inj (hk.symm.trans hk')
        obtain rfl := Option.some.inj (hid.symm.trans hid')
        exact means_declared rfl hhas
  | .null _ p l hk =>
      exact ⟨_, s, [], .literal r p l s _ s (.untyped hk), rfl, .literal _ l rfl⟩
  | .global _ name g hg =>
      exact ⟨_, s, [], .name r name s _ [] (.global g hg), rfl,
        means_declared rfl (hfits.symbols.has_global hg)⟩
  | .function _ name f hg hf =>
      exact ⟨_, s, [], .name r name s _ [] (.function f hg hf), rfl,
        .methodGroup _ f rfl (hfits.symbols.has_result hf)⟩
  | .staticAccess _ p type name owner field hfresh hlookup hdeclares =>
      have hfield := TypeTable.findField_eq_some_iff.mpr hdeclares
      have howner : ctx.typeNamed s.table (.identifier type) = some owner :=
        (typeNamed_eq_some_iff hs).mpr ⟨type, rfl, hfresh, hlookup⟩
      exact ⟨_, s, [], .staticAccess r p _ name s owner _ [] howner
        (.found field (by rw [hs.grows.findField, hfield])), rfl,
        means_declared rfl (hfits.table.findField hfield).2⟩
  | .staticPath _ p type name owner field hfresh hlookup hdeclares =>
      have hfield := TypeTable.findField_eq_some_iff.mpr hdeclares
      have howner : ctx.typeNamed s.table (.identifier type) = some owner :=
        (typeNamed_eq_some_iff hs).mpr ⟨type, rfl, hfresh, hlookup⟩
      exact ⟨_, s, [], .staticPath r p _ name s owner _ [] howner
        (.found field (by rw [hs.grows.findField, hfield])), rfl,
        means_declared rfl (hfits.table.findField hfield).2⟩
  | .instanceAccess _ p target name id field htarget hdeclares =>
      have hfield := TypeTable.findField_eq_some_iff.mpr hdeclares
      obtain ⟨b, s', ds, hb, hclean, hm⟩ := Typed.binds hfits htarget hs hr
      have hsound := (hb.sound hfits hs).1
      -- A target that means something is not taken for the name of a type.
      refine ⟨_, s', _, .instanceAccess r p target name s b s' ds _ []
        htarget.typeNamed_eq_none hb (.found id field hclean hm.declared_inv.1 ?_), hclean,
        means_declared rfl (hfits.table.findField hfield).2⟩
      rw [hsound.grows.findField, hfield]
  | .memberBinding p name id field hdeclares =>
      have hfield := TypeTable.findField_eq_some_iff.mpr hdeclares
      cases r with
      | none => cases hr
      | some x =>
          cases hr with
          | some hid =>
              obtain ⟨rfl, _⟩ := hid.declared_inv
              exact ⟨_, s, [], .memberBinding x p name s _ [] (.found x.type field rfl rfl
                (by rw [hs.grows.findField, hfield])), rfl,
                means_declared rfl (hfits.table.findField hfield).2⟩
  | .conditionalAccess _ p target access τ inner m' lifted htarget hinner haccess hlifts =>
      obtain ⟨bound, t, ds, hbound, hclean, hm⟩ := Typed.binds hfits htarget hs hr
      have hsound := (hbound.sound hfits hs).1
      obtain ⟨type, hreceiver, htype⟩ := hinner.receiverRule hsound hm
      have hr' : Receiver.Denotes base t (some ⟨target, type⟩) (some inner) := .some htype
      obtain ⟨accessed, u, ds', haccessed, hclean', hm'⟩ := Typed.binds hfits haccess hsound hr'
      have hsound' := (haccessed.sound hfits hsound).1
      -- The lifted type exists, and there is only one that the rules of typing allow.
      obtain ⟨id, s', hlift⟩ := liftRule_total (haccessed.valid hfits hsound).type
      obtain ⟨lifted', hlifts', hlifted⟩ := hlift.lifts hfits.table hsound' hm'.type
      obtain rfl := hlifts.unique hlifts'
      exact ⟨_, s', _, .conditionalAccess r p target access s bound t ds type accessed u ds' id s'
        hbound hclean hreceiver haccessed hlift, by simp [BoundExpr.hasAnyErrors, hclean, hclean'],
        means_conditionalAccess hlifted⟩
  | .invocation _ p callee arguments f hcallee harguments harity =>
      obtain ⟨target, t, ds, htarget, hclean, hm⟩ := Typed.binds hfits hcallee hs hr
      obtain ⟨hsound, hext⟩ := htarget.sound hfits hs
      obtain ⟨bs, u, ds', hbs, hclean'⟩ := TypedAll.binds hfits harguments hsound (hr.mono hext)
      cases hm with
      | methodGroup source _ heq hhas =>
          refine ⟨_, u, _, .invocation r p callee arguments s target t ds bs u ds' _ []
            htarget hbs (.call source f heq ?_), by simpa [BoundExpr.hasAnyErrors] using hclean',
            means_declared rfl hhas⟩
          rw [hbs.length, harity]
  | .binary _ p op left right m₁ m₂ τ hleft hright hadds =>
      obtain ⟨b₁, t, ds, hb₁, hclean₁, hm₁⟩ := Typed.binds hfits hleft hs hr
      obtain ⟨hsound, hext⟩ := hb₁.sound hfits hs
      obtain ⟨b₂, u, ds', hb₂, hclean₂, hm₂⟩ := Typed.binds hfits hright hsound (hr.mono hext)
      obtain ⟨hsound', hext'⟩ := hb₂.sound hfits hsound
      obtain ⟨id, hsum, hid⟩ := hadds.sumRule hfits hsound' (hm₁.mono hext') hm₂
      refine ⟨_, _, _, .binary r p op left right s b₁ t ds b₂ u ds' _ _ [] hb₁ hb₂
        (.sum id hclean₁ hclean₂ hsum), by simp [BoundExpr.hasAnyErrors, hclean₁, hclean₂], ?_⟩
      rw [hsound'.withSumTypes hfits]
      exact .value id τ rfl hid
  | .parenthesized _ p inner _ hinner =>
      obtain ⟨b, s', ds, hb, hclean, hm⟩ := Typed.binds hfits hinner hs hr
      exact ⟨b, s', ds, .parenthesized r p inner s b s' ds hb, hclean, hm⟩
  | .creation _ p new initializers τs hallowed hfields hnodup =>
      obtain ⟨resolved, t, ds, hresolved, hclean, hkey⟩ :=
        TypedFields.binds hfits hfields hs hr 0 [] (by simpa using hnodup)
      have hsound := (hresolved.sound hfits hs).1
      have hhas : ∀ f ∈ resolved.map (·.field), t.table.Has f.type := by
        intro f hf
        obtain ⟨x, hx, rfl⟩ := List.mem_map.mp hf
        exact hresolved.has hfits hs x hx
      obtain ⟨type, s', htype⟩ := Store.intern_of_has hhas (ctx.span new)
      exact ⟨_, s', _, .creation r p new initializers s resolved t ds type s' hresolved htype,
        (creationNode_hasAnyErrors _ _ _ _ _).mpr ⟨hclean, hallowed⟩,
        .value type.id _ rfl (hkey.interned hfits.table hsound htype)⟩

/-- Expressions that mean something are bound without a mistake. -/
theorem TypedAll.binds (hfits : ctx.Fits base) {ρ : Option Ty} {es : List Expr}
    (h : TypedAll ctx base ρ es) {r : Option Receiver} {s : Store} (hs : s.Sound base)
    (hr : Receiver.Denotes base s r ρ) :
    ∃ bs s' ds, BindsAll ctx r es s bs s' ds ∧ BoundExpr.anyHasErrors bs = false := by
  match h with
  | .nil _ => exact ⟨[], s, [], .nil r s, rfl⟩
  | .cons _ e es m he hes =>
      obtain ⟨b, t, ds, hb, hclean, _⟩ := Typed.binds hfits he hs hr
      obtain ⟨hsound, hext⟩ := hb.sound hfits hs
      obtain ⟨bs, s', ds', hbs, hclean'⟩ := TypedAll.binds hfits hes hsound (hr.mono hext)
      exact ⟨_, s', _, .cons r e es s b t ds bs s' ds' hb hbs,
        by simp [BoundExpr.anyHasErrors, hclean, hclean']⟩

/-- Initializers that make fields are bound to these fields, without a mistake. -/
theorem TypedFields.binds (hfits : ctx.Fits base) {ρ : Option Ty}
    {inits : List (Initializer Expr)} {τs : List (String × Ty)}
    (h : TypedFields ctx base ρ inits τs) {r : Option Receiver} {s : Store} (hs : s.Sound base)
    (hr : Receiver.Denotes base s r ρ) (index : Nat) (used : List String)
    (hnodup : (used ++ τs.map (·.1)).Nodup) :
    ∃ fields s' ds, BindsFields ctx r index used inits s fields s' ds ∧ FieldsClean fields ∧
      DenotesKey base s' (AnonymousKey.ofFields (fields.map (·.field))) τs := by
  match h with
  | .nil _ => exact ⟨[], s, [], .nil r index used s, by simp [FieldsClean], .nil⟩
  | .cons _ init rest n τ τs hname hidentifier hvalue husable hrest =>
      obtain ⟨b, t, ds, hb, hclean, hm⟩ := Typed.binds hfits hvalue hs hr
      obtain ⟨hsound, hext⟩ := hb.sound hfits hs
      -- The name moves over to those in use, so the names stay distinct as a whole.
      rw [List.map_cons, List.append_cons] at hnodup
      have hfresh : n.text ∉ used := by
        intro hused
        have := (List.nodup_append.mp (List.nodup_append.mp hnodup).1).2.2
        exact this _ hused _ (List.mem_singleton_self _) rfl
      obtain ⟨field, hfield, hfaulty, hkept, hshown, hid⟩ := husable.fieldRule ctx index hsound
        hname hidentifier hfresh hclean hvalue.isError_eq_false hm
      obtain ⟨fields, s', ds', hfields, hclean', hkey⟩ := TypedFields.binds hfits hrest hsound
        (hr.mono hext) (index + 1) (used ++ field.name.toList) (by simpa [hkept] using hnodup)
      refine ⟨_, s', _, .cons r index used init rest s b t ds field t [] fields s' ds' hb hfield
        hfields, fieldsClean_cons.mpr ⟨⟨by rw [hfield.value_eq, hclean], hfaulty⟩, hclean'⟩, ?_⟩
      simp only [List.map_cons, AnonymousKey.ofFields, hshown]
      exact .cons _ _ _ _ _ (hid.mono (hfields.sound hfits hsound).2) hkey

end

/-! ## Compilations -/

/-- Binding an expression from source text decides its type: it makes a node without a mistake
exactly when the rules of typing give the expression a type, or a meaning without one, and then
there is one such type and it is what the type of the node stands for. -/
theorem bindExpr_iff_hasType [Text.CharacterNames] (p : Program) (nullable : Option Bool)
    (file : Option String) (member : Option ContainingMember) {source : List Char} {e : Expr}
    (he : Expr.parse source = .ok e) {s : Store}
    (hs : (Compilation.ofProgram p nullable file).Reachable s) :
    let c := Compilation.ofProgram p nullable file
    let outcome := (c.context member).bindExpr none e s
    ∃ b, outcome.result = .ok b ∧
      (∀ τ, b.hasAnyErrors = false ∧ Option.Rel (Denotes c.table outcome.store) b.type? τ ↔
        HasType (c.context member) c.table e τ) ∧
      (b.hasAnyErrors = false → ∃! τ, HasType (c.context member) c.table e τ) := by
  intro c outcome
  have hfits := Compilation.ofProgram_fits p nullable file member
  obtain ⟨b, s', ds, hb⟩ := hs.binds member (Expr.parse_readable he).closed
  obtain ⟨hresult, hstore, _⟩ := (Context.yields_of_binds hb).eq
  have hsound := (hb.sound hfits hs.sound).1
  have hnone : Receiver.Denotes c.table s none none := .none
  have hiff : ∀ τ, b.hasAnyErrors = false ∧ Option.Rel (Denotes c.table s') b.type? τ ↔
      HasType (c.context member) c.table e τ := by
    intro τ
    constructor
    · rintro ⟨hclean, hτ⟩
      obtain ⟨m, htyped, hm⟩ := hb.typed hfits hs.sound hnone hclean
      exact ⟨m, htyped, Denotes.option_unique hfits.table hsound hm.type hτ⟩
    · rintro ⟨m, htyped, rfl⟩
      obtain ⟨b', t, ds', hb', hclean, hm⟩ := htyped.binds hfits hs.sound hnone
      -- Binding is a function of the store, so the node that the typing makes is the node at hand.
      obtain ⟨rfl, rfl, _⟩ := hb.unique hb'
      exact ⟨hclean, hm.type⟩
  refine ⟨b, hresult, by rw [hstore]; exact hiff, fun hclean => ?_⟩
  obtain ⟨m, htyped, hm⟩ := hb.typed hfits hs.sound hnone hclean
  refine ⟨m.type?, ⟨m, htyped, rfl⟩, fun τ hτ => ?_⟩
  exact Denotes.option_unique hfits.table hsound ((hiff τ).mpr hτ).2 hm.type

/-- The type of `new { a = 1 }` in a method is decided. -/
theorem hasType_of_creation :
    let c := Compilation.ofProgram {} none none
    let member : ContainingMember := { kind := .method, name := "m" }
    let e : Expr := .creation (some ⟨1, 1⟩) (some ⟨1, 1⟩)
      [⟨some ⟨1, 7⟩, some ⟨"a", some ⟨1, 7⟩⟩, .literal (some ⟨1, 11⟩) ⟨.int, .int 1⟩⟩]
    let outcome := (c.context (some member)).bindExpr none e c.store
    Expr.parse "new \x7b a = 1 \x7d".toList = .ok e ∧ c.Reachable c.store ∧
      ∃ b, outcome.result = .ok b ∧
        (∀ τ, b.hasAnyErrors = false ∧ Option.Rel (Denotes c.table outcome.store) b.type? τ ↔
          HasType (c.context (some member)) c.table e τ) ∧
        (b.hasAnyErrors = false → ∃! τ, HasType (c.context (some member)) c.table e τ) := by
  intro c member e outcome
  have hparse : Expr.parse "new \x7b a = 1 \x7d".toList = .ok e := rfl
  exact ⟨hparse, .refl, bindExpr_iff_hasType {} none none (some member) hparse .refl⟩

end AnonymousObjects
