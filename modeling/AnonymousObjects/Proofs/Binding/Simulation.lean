import AnonymousObjects.Proofs.Binding.Alignment
import AnonymousObjects.Proofs.Binding.SideBySide

/-!
# Binding in another store

What an expression is bound to does not depend on the types that are there already. If `e` is bound
in a regular store `s`, then it is bound in any other regular store `t` of the same declared types,
with the same diagnostics and to a tree that is the same but for ids; the ids denote the same
structures, and what is new after `s` is there after `t` (`Binds.simulates`). Each rule of binding
has a lemma of this form.
-/

namespace AnonymousObjects

open Store (SideBySide)
open Syntax (Expr Initializer Literal Name)

variable {ctx : Context} {base : TypeTable} {s s' t : Store} {b c : BoundExpr}
  {ds : List Diagnostic}

/-! ## Questions about types -/

/-- Nodes that are alike are described the same. -/
theorem Describes.simulates (hs : s.Regular base) (ht : t.Regular base) {text : Text}
    (h : Describes s.table b text) (hb : b.Alike (s.SameType t) c) : Describes t.table c text := by
  cases h with
  | typed id d hid hd =>
      obtain ⟨id', hid', hsame⟩ := hb.of_typed hid
      obtain ⟨d', hd', hname, _⟩ := hsame.resembles hs ht hd
      rw [← hname]
      exact .typed id' d' hid' hd'
  | untyped hnone =>
      rw [← hb.display]
      exact .untyped (hb.of_untyped hnone)

/-- Source text names the same types. -/
theorem Store.Sound.typeNamed (hs : s.Sound base) (ctx : Context) (e : Expr) :
    ctx.typeNamed s.table e = ctx.typeNamed base e := by
  cases e <;> simp only [Context.typeNamed, hs.grows.lookup]

/-- A declared field is the same but for ids that denote the same. -/
theorem FieldSchema.alike_self (hbase : base.Base) (hs : s.Sound base) (ht : t.Sound base)
    {f : FieldSchema} (hf : base.Has f.type) : f.Alike (s.SameType t) f :=
  ⟨rfl, hs.sameType hbase ht hf, rfl⟩

/-- A declared function is like itself in both stores. -/
theorem FunctionSymbol.alike_self (hfits : ctx.Fits base) (hs : s.Sound base) (ht : t.Sound base)
    {f : FunctionSymbol} (hf : f ∈ ctx.symbols.functions) : f.Alike (s.SameType t) f := by
  obtain ⟨hparams, hresult⟩ := hfits.symbols.functions f hf
  refine ⟨rfl, ?_, hs.sameType hfits.table ht hresult, rfl⟩
  rw [List.forall₂_same]
  exact fun id hid => hs.sameType hfits.table ht (hparams id hid)

/-- Declared types are the types of the same nodes. -/
theorem BoundExpr.Alike.type?_eq_iff (hbase : base.Base) (hs : s.Regular base) (ht : t.Regular base)
    (hb : b.Alike (s.SameType t) c) {declared : TypeId} (hdeclared : base.Has declared) :
    c.type? = some declared ↔ b.type? = some declared := by
  cases htype : b.type? with
  | none => simp [hb.of_untyped htype]
  | some id =>
      obtain ⟨id', hid', hsame⟩ := hb.of_typed htype
      rw [hid', Option.some.injEq, Option.some.injEq]
      exact hsame.eq_iff hbase hs ht hdeclared

/-! ## Names and fields -/

/-- A name is bound alike in both stores. -/
theorem NameRule.simulates (hfits : ctx.Fits base) (hs : s.Regular base) (ht : t.Regular base)
    {name : Name} (h : NameRule ctx s.table name b ds) :
    ∃ c, NameRule ctx t.table name c ds ∧ b.Alike (s.SameType t) c := by
  have hlookup : ∀ n, t.table.lookup n = s.table.lookup n := by
    intro n
    rw [ht.grows.lookup, hs.grows.lookup]
  cases h with
  | global g hg =>
      have htype := hfits.symbols.has_global hg
      exact ⟨_, .global g hg, .global _ _ _ _ (hs.toSound.sameType hfits.table ht.toSound htype)⟩
  | function f hg hf =>
      exact ⟨_, .function f hg hf, .methodGroup _ _ _
        (FunctionSymbol.alike_self hfits hs.toSound ht.toSound (List.mem_of_find?_eq_some hf))⟩
  | typeName id hg hf hid =>
      exact ⟨_, .typeName id hg hf ((hlookup _).trans hid), .bad _ _ _ .nil⟩
  | undefined hg hf hnone =>
      exact ⟨_, .undefined hg hf ((hlookup _).trans hnone), .bad _ _ _ .nil⟩

/-- A static field is bound alike in both stores. -/
theorem StaticFieldRule.simulates (hbase : base.Base) (hs : s.Regular base) (ht : t.Regular base)
    {source : Expr} {owner : TypeId} (howner : base.Has owner) {name : Name}
    (h : StaticFieldRule ctx s.table source owner name b ds) :
    ∃ c, StaticFieldRule ctx t.table source owner name c ds ∧ b.Alike (s.SameType t) c := by
  cases h with
  | found field hfield =>
      rw [hs.grows.findField] at hfield
      refine ⟨_, .found field (by rw [ht.grows.findField, hfield]), .staticField _ _ _ ?_⟩
      exact FieldSchema.alike_self hbase hs.toSound ht.toSound (hbase.findField hfield).2
  | missing d hnone hd =>
      obtain ⟨e, he⟩ := howner
      obtain rfl : d = e := Option.some.inj (hd.symm.trans (hs.grows.get? he))
      rw [hs.grows.findField] at hnone
      exact ⟨_, .missing d (by rw [ht.grows.findField, hnone]) (ht.grows.get? he), .bad _ _ _ .nil⟩

/-- An instance field of receivers that are alike is bound alike. -/
theorem InstanceFieldRule.simulates (hbase : base.Base) (hs : s.Regular base) (ht : t.Regular base)
    {source : Expr} {receiver receiver' : BoundExpr} {name : Name}
    (h : InstanceFieldRule ctx s.table source receiver name b ds)
    (hreceiver : receiver.Alike (s.SameType t) receiver') :
    ∃ c, InstanceFieldRule ctx t.table source receiver' name c ds ∧ b.Alike (s.SameType t) c := by
  cases h with
  | faulty hfaulty =>
      exact ⟨_, .faulty (hreceiver.hasAnyErrors.trans hfaulty),
        .bad _ _ _ (.cons _ _ _ _ hreceiver .nil)⟩
  | found id field hclean hid hfield =>
      obtain ⟨id', hid', hsame⟩ := hreceiver.of_typed hid
      -- Receivers that are alike have types with the same declared fields, so the look-up finds the
      -- same one.
      have hfield' := (hsame.findField hbase hs ht name.text false).trans hfield
      rw [hs.grows.findField] at hfield
      refine ⟨_, .found id' field (hreceiver.hasAnyErrors.trans hclean) hid' hfield',
        .instanceField _ _ _ _ _ hreceiver ?_⟩
      exact FieldSchema.alike_self hbase hs.toSound ht.toSound (hbase.findField hfield).2
  | missing shown hclean hnone hshown =>
      have hnone' : receiver'.type?.bind (t.table.findField · name.text false) = none := by
        cases htype : receiver.type? with
        | none => rw [hreceiver.of_untyped htype, Option.bind_none]
        | some id =>
            obtain ⟨id', hid', hsame⟩ := hreceiver.of_typed htype
            rw [htype, Option.bind_some] at hnone
            rw [hid', Option.bind_some, hsame.findField hbase hs ht, hnone]
      exact ⟨_, .missing shown (hreceiver.hasAnyErrors.trans hclean) hnone'
        (hshown.simulates hs ht hreceiver), .bad _ _ _ (.cons _ _ _ _ hreceiver .nil)⟩

/-- A path is rejected the same for nodes that are alike. -/
theorem PathRule.simulates {R : TypeId → TypeId → Prop} {left : Expr} (h : PathRule ctx left b ds)
    (hb : b.Alike R c) : PathRule ctx left c ds := by
  cases h with
  | faulty hfaulty => exact .faulty (hb.hasAnyErrors.trans hfaulty)
  | unknown hclean => exact .unknown (hb.hasAnyErrors.trans hclean)

/-! ## Conditional accesses -/

/-- Member bindings refer to the same types for targets that are alike. -/
theorem ReceiverRule.simulates (hs : s.Regular base) (ht : t.Regular base) {type : Option TypeId}
    (h : ReceiverRule s.table b type) (hb : b.Alike (s.SameType t) c) :
    ∃ type', ReceiverRule t.table c type' ∧ Option.Rel (s.SameType t) type type' := by
  cases h with
  | untyped hnone => exact ⟨_, .untyped (hb.of_untyped hnone), .none⟩
  | nullable id inner name hid hd =>
      obtain ⟨id', hid', hsame⟩ := hb.of_typed hid
      obtain ⟨inner', name', hd', hinner⟩ := hsame.of_nullable hs.toSound hd
      exact ⟨_, .nullable id' inner' name' hid' hd', .some hinner⟩
  | reference id d hid hd href =>
      obtain ⟨id', hid', hsame⟩ := hb.of_typed hid
      obtain ⟨d', hd', _, hkind⟩ := hsame.resembles hs ht hd
      exact ⟨_, .reference id' d' hid' hd' (hkind.isReference.trans href), .some hsame⟩
  | other id d hid hd hnone =>
      obtain ⟨id', hid', hsame⟩ := hb.of_typed hid
      obtain ⟨d', hd', _, hkind⟩ := hsame.resembles hs ht hd
      exact ⟨_, .other id' d' hid' hd' (hkind.admitsNull.trans hnone), .none⟩

/-- The same types are lifted to the same types, side by side. -/
theorem LiftRule.simulates (hbase : base.Base) (hs : s.Regular base) (ht : t.Regular base)
    {type type' lifted : Option TypeId} (h : LiftRule s type lifted s')
    (htype : Option.Rel (s.SameType t) type type') :
    ∃ lifted' t', LiftRule t type' lifted' t' ∧ SideBySide base s t s' t' ∧
      Option.Rel (s'.SameType t') lifted lifted' := by
  cases h with
  | untyped =>
      cases htype
      exact ⟨_, _, .untyped, .refl hs ht, .none⟩
  | void id d hd hvoid =>
      cases htype with
      | some hsame =>
          obtain ⟨d', hd', _, hkind⟩ := hsame.resembles hs ht hd
          exact ⟨_, _, .void _ d' hd' (hkind.isVoid.trans hvoid), .refl hs ht, .some hsame⟩
  | nullable id d made table hd hvoid hmade =>
      cases htype with
      | some hsame =>
          obtain ⟨d', hd', _, hkind⟩ := hsame.resembles hs ht hd
          obtain ⟨⟨made', table'⟩, hmade', hside, hmadeSame⟩ :=
            SideBySide.nullableOf hbase hs ht hsame hmade
          exact ⟨_, _, .nullable _ d' made' table' hd' (hkind.isVoid.trans hvoid) hmade', hside,
            .some hmadeSame⟩

/-! ## Calls, literals and sums -/

/-- A call is bound alike when its parts are alike. -/
theorem CallRule.simulates {R : TypeId → TypeId → Prop} {source callee : Expr}
    {target target' : BoundExpr} {arguments arguments' : List BoundExpr}
    (h : CallRule ctx source callee target arguments b ds) (htarget : target.Alike R target')
    (harguments : BoundExpr.AlikeAll R arguments arguments') :
    ∃ c, CallRule ctx source callee target' arguments' c ds ∧ b.Alike R c := by
  cases h with
  | faulty hfaulty =>
      exact ⟨_, .faulty (htarget.hasAnyErrors.trans hfaulty),
        .bad _ _ _ (.cons _ _ _ _ htarget harguments)⟩
  | call name f hgroup hlength =>
      subst hgroup
      cases htarget with
      | methodGroup _ _ g hg =>
          refine ⟨_, .call name g rfl ?_, .call _ _ _ _ _ hg harguments⟩
          rw [harguments.length, hlength, hg.params.length_eq]
  | arity name f hgroup hlength =>
      subst hgroup
      cases htarget with
      | methodGroup _ _ g hg =>
          refine ⟨.bad source arguments', ?_, .bad _ _ _ harguments⟩
          -- The report counts parameters and arguments, and there are as many of both on the other
          -- side.
          rw [← hg.name, hg.params.length_eq, ← harguments.length]
          refine .arity name g rfl ?_
          rwa [harguments.length, ← hg.params.length_eq]
  | notInvocable hclean hgroup =>
      refine ⟨_, .notInvocable (htarget.hasAnyErrors.trans hclean) ?_,
        .bad _ _ _ (.cons _ _ _ _ htarget harguments)⟩
      rintro name g rfl
      cases htarget with
      | methodGroup _ f _ _ => exact hgroup name f rfl

/-- A builtin type has the same id in every store. -/
theorem Store.Sound.ensure_eq (hfits : ctx.Fits base) (hs : s.Sound base) (ht : t.Sound base)
    (k : Builtin) :
    (t.table.ensure k).1 = (s.table.ensure k).1 ∧ base.Has (s.table.ensure k).1 := by
  obtain ⟨hlookup, hget, _⟩ := hs.ensure hfits k
  obtain ⟨hlookup', _, _⟩ := ht.ensure hfits k
  exact ⟨Option.some.inj (hlookup'.symm.trans hlookup), _, hget⟩

/-- A literal is bound alike in both stores, and nothing is created. -/
theorem LiteralRule.simulates (hfits : ctx.Fits base) (hs : s.Regular base) (ht : t.Regular base)
    {source : Expr} {l : Literal} (h : LiteralRule s source l b s') :
    s' = s ∧ ∃ c, LiteralRule t source l c t ∧ b.Alike (s.SameType t) c := by
  cases h with
  | typed k hk =>
      obtain ⟨heq, hhas⟩ := hs.toSound.ensure_eq hfits ht.toSound k
      obtain ⟨_, _, hsame⟩ := hs.toSound.ensure hfits k
      obtain ⟨_, _, hsame'⟩ := ht.toSound.ensure hfits k
      refine ⟨by rw [hsame], _, ?_, .literal _ _ (some (t.table.ensure k).1) _ (.some ?_)⟩
      · have hrule : LiteralRule t source l (.literal source (some (t.table.ensure k).1) l)
            { t with table := (t.table.ensure k).2 } := .typed k hk
        rwa [hsame'] at hrule
      · rw [heq]
        exact hs.toSound.sameType hfits.table ht.toSound hhas
  | untyped hk => exact ⟨rfl, _, .untyped hk, .literal _ _ _ _ .none⟩

/-- Nodes that are alike can both be parts of strings, or neither can. -/
theorem JoinRule.simulates (hs : s.Regular base) (ht : t.Regular base) {joins : Bool}
    (h : JoinRule s.table b joins) (hb : b.Alike (s.SameType t) c) : JoinRule t.table c joins := by
  cases h with
  | literal source type l hliteral hnone =>
      subst hliteral hnone
      cases hb with
      | literal _ _ _ _ htype =>
          cases htype
          exact .literal source none l rfl rfl
  | untyped hnone hliteral =>
      refine .untyped (hb.of_untyped hnone) ?_
      rintro source type l rfl
      cases hb with
      | literal _ type' _ _ _ => exact hliteral source type' l rfl
  | typed id d hid hd =>
      obtain ⟨id', hid', hsame⟩ := hb.of_typed hid
      obtain ⟨d', hd', _, hkind⟩ := hsame.resembles hs ht hd
      rw [← hkind.isVoid, ← hkind.isUnsafe]
      exact .typed id' d' hid' hd'

/-- Sums of nodes that are alike have the same type. -/
theorem SumRule.simulates (hbase : base.Base) (hs : s.Regular base) (ht : t.Regular base)
    {int string : TypeId} (hint : base.Has int) (hstring : base.Has string)
    {left right left' right' : BoundExpr} {type : Option TypeId}
    (h : SumRule s.table int string left right type) (hleft : left.Alike (s.SameType t) left')
    (hright : right.Alike (s.SameType t) right') :
    SumRule t.table int string left' right' type := by
  have hleftInt := hleft.type?_eq_iff hbase hs ht hint
  have hrightInt := hright.type?_eq_iff hbase hs ht hint
  have hleftString := hleft.type?_eq_iff hbase hs ht hstring
  have hrightString := hright.type?_eq_iff hbase hs ht hstring
  -- The conditions that fail are carried over as well: the equivalences are used from right to
  -- left.
  cases h with
  | int hl hr => exact .int (hleftInt.mpr hl) (hrightInt.mpr hr)
  | joined hints hstrings hl hr =>
      rw [← hleftInt, ← hrightInt] at hints
      rw [← hleftString, ← hrightString] at hstrings
      exact .joined hints hstrings (hl.simulates hs ht hleft) (hr.simulates hs ht hright)
  | leftApart hints hstrings hl =>
      rw [← hleftInt, ← hrightInt] at hints
      rw [← hleftString, ← hrightString] at hstrings
      exact .leftApart hints hstrings (hl.simulates hs ht hleft)
  | rightApart hints hstrings hl hr =>
      rw [← hleftInt, ← hrightInt] at hints
      rw [← hleftString, ← hrightString] at hstrings
      exact .rightApart hints hstrings (hl.simulates hs ht hleft) (hr.simulates hs ht hright)
  | other hints hstrings =>
      rw [← hleftInt, ← hrightInt] at hints
      rw [← hleftString, ← hrightString] at hstrings
      exact .other hints hstrings

/-- A binary expression is bound alike when its sides are alike, and nothing is created. -/
theorem BinaryRule.simulates (hfits : ctx.Fits base) (hs : s.Regular base) (ht : t.Regular base)
    {source : Expr} {op : String} {left right left' right' : BoundExpr}
    (h : BinaryRule ctx source op s left right b s' ds) (hleft : left.Alike (s.SameType t) left')
    (hright : right.Alike (s.SameType t) right') :
    s' = s ∧ ∃ c, BinaryRule ctx source op t left' right' c t ds ∧ b.Alike (s.SameType t) c := by
  -- The builtin types are there already, so looking for them changes neither store.
  have hsums := hs.toSound.withSumTypes hfits
  have hsums' := ht.toSound.withSumTypes hfits
  obtain ⟨hint, hhasInt⟩ := hs.toSound.ensure_eq hfits ht.toSound .int
  obtain ⟨hstring, hhasString⟩ := hs.toSound.ensure_eq hfits ht.toSound .string
  have hsameInt := (hs.toSound.ensure hfits .int).2.2
  have hsameInt' := (ht.toSound.ensure hfits .int).2.2
  have hparts : BoundExpr.AlikeAll (s.SameType t) [left, right] [left', right'] :=
    .cons _ _ _ _ hleft (.cons _ _ _ _ hright .nil)
  have hclean := hleft.hasAnyErrors
  have hclean' := hright.hasAnyErrors
  have hrule : ∀ type, SumRule s.withSumTypes.table (s.table.ensure .int).1
      ((s.table.ensure .int).2.ensure .string).1 left right type →
      SumRule t.withSumTypes.table (t.table.ensure .int).1
        ((t.table.ensure .int).2.ensure .string).1 left' right' type := by
    intro type hsum
    rw [hsums, hsameInt] at hsum
    rw [hsums', hsameInt', hint, hstring]
    exact hsum.simulates hfits.table hs ht hhasInt hhasString hleft hright
  cases h with
  | faulty hfaulty =>
      exact ⟨rfl, _, .faulty (by rw [hclean, hclean', hfaulty]), .bad _ _ _ hparts⟩
  | sum id hl hr hsum =>
      have hid : base.Has id := by
        rw [hsameInt] at hsum
        rcases hsum.eq_of_some with rfl | rfl
        · exact hhasInt
        · exact hhasString
      have hnew : BinaryRule ctx source op t left' right' (.binary source op left' right' id)
          t.withSumTypes [] :=
        .sum id (hclean.trans hl) (hclean'.trans hr) (hrule _ hsum)
      rw [hsums'] at hnew
      exact ⟨hsums, _, hnew,
        .binary _ _ _ _ _ _ _ _ hleft hright (hs.toSound.sameType hfits.table ht.toSound hid)⟩
  | mistake shownLeft shownRight hl hr hsum hshown hshown' =>
      rw [hsums] at hshown hshown'
      have hnew : BinaryRule ctx source op t left' right' (.bad source [left', right'])
          t.withSumTypes
          [ctx.mistake (.badBinaryOperands op shownLeft shownRight) source.position] :=
        .mistake shownLeft shownRight (hclean.trans hl) (hclean'.trans hr) (hrule _ hsum)
          (hsums'.symm ▸ hshown.simulates hs ht hleft)
          (hsums'.symm ▸ hshown'.simulates hs ht hright)
      rw [hsums'] at hnew
      exact ⟨hsums, _, hnew, .bad _ _ _ hparts⟩

/-! ## Fields of creations -/

/-- Fields with values that are alike have the same type, side by side. -/
theorem FieldTypeRule.simulates (hbase : base.Base) (hs : s.Regular base) (ht : t.Regular base)
    {value value' : BoundExpr} {span : Span} {id : TypeId} {faulty : Bool}
    (h : FieldTypeRule s value span id faulty s' ds) (hvalue : value.Alike (s.SameType t) value') :
    ∃ id' t', FieldTypeRule t value' span id' faulty t' ds ∧ SideBySide base s t s' t' ∧
      s'.SameType t' id id' := by
  have herrors := hvalue.hasAnyErrors
  cases h with
  | faulty _ hfaulty hid =>
      obtain ⟨id', hid', hsame⟩ := hvalue.of_typed hid
      exact ⟨_, _, .faulty id' (herrors.trans hfaulty) hid', .refl hs ht, hsame⟩
  | faultyUntyped hfaulty hnone =>
      obtain ⟨hside, hsame⟩ := SideBySide.ensureError hbase hs ht "error"
      exact ⟨_, _, .faultyUntyped (herrors.trans hfaulty) (hvalue.of_untyped hnone), hside, hsame⟩
  | untyped hclean hnone =>
      obtain ⟨hside, hsame⟩ := SideBySide.ensureError hbase hs ht "error"
      rw [← hvalue.display]
      exact ⟨_, _, .untyped (herrors.trans hclean) (hvalue.of_untyped hnone), hside, hsame⟩
  | void inner d hclean hid hd hvoid =>
      obtain ⟨id', hid', hsame⟩ := hvalue.of_typed hid
      obtain ⟨d', hd', hname, hkind⟩ := hsame.resembles hs ht hd
      obtain ⟨hside, herror⟩ := SideBySide.ensureError hbase hs ht "void"
      -- The message has the name of the type in it, so that both sides show the same is part of the
      -- claim.
      rw [← hname]
      exact ⟨_, _, .void id' d' (herrors.trans hclean) hid' hd' (hkind.isVoid.trans hvoid), hside,
        herror⟩
  | denied _ d hclean hid hd hvoid hdenied =>
      obtain ⟨id', hid', hsame⟩ := hvalue.of_typed hid
      obtain ⟨d', hd', hname, hkind⟩ := hsame.resembles hs ht hd
      rw [← hkind.isUnsafe, ← hkind.isRestricted] at hdenied
      rw [← hname]
      have hvoid' := hkind.isVoid.trans hvoid
      exact ⟨_, _, .denied id' d' (herrors.trans hclean) hid' hd' hvoid' hdenied, .refl hs ht,
        hsame⟩
  | usable _ d hclean hid hd hvoid husable =>
      obtain ⟨id', hid', hsame⟩ := hvalue.of_typed hid
      obtain ⟨d', hd', _, hkind⟩ := hsame.resembles hs ht hd
      rw [← hkind.isUnsafe, ← hkind.isRestricted] at husable
      have hvoid' := hkind.isVoid.trans hvoid
      exact ⟨_, _, .usable id' d' (herrors.trans hclean) hid' hd' hvoid' husable, .refl hs ht,
        hsame⟩

/-- The state of a field is that of a field of the same type. -/
theorem Store.SameType.nullability (hs : s.Regular base) (ht : t.Regular base) {id id' : TypeId}
    (h : s.SameType t id id') {nullable : Option Bool} {nullability : Nullability}
    (hn : Nullability.ofType s.table id nullable = .ok nullability) :
    Nullability.ofType t.table id' nullable = .ok nullability := by
  match nullable with
  | none => exact hn
  | some false => exact hn
  | some true =>
      obtain ⟨d, hd⟩ := h.symm.has_right hs.toSound
      obtain ⟨d', hd', _, hkind⟩ := h.resembles hs ht hd
      have hshape := TypeTable.shape_eq_ok_iff.mpr ⟨d, hd, rfl⟩
      have hshape' := TypeTable.shape_eq_ok_iff.mpr ⟨d', hd', rfl⟩
      simp only [Nullability.ofType, hshape, hshape', bind, Except.bind] at hn ⊢
      rw [hkind.isReference]
      exact hn

/-- Fields with values that are alike are resolved alike, side by side. -/
theorem FieldRule.simulates (hbase : base.Base) (hs : s.Regular base) (ht : t.Regular base)
    {index : Nat} {used : List String} {init : Initializer Expr} {value value' : BoundExpr}
    {field : ResolvedField} (h : FieldRule ctx index used init s value field s' ds)
    (hvalue : value.Alike (s.SameType t) value') :
    ∃ field' t', FieldRule ctx index used init t value' field' t' ds ∧
      SideBySide base s t s' t' ∧ field.Alike (s'.SameType t') field' := by
  cases h with
  | field kept nameReports type badType _ typeReports nullability hname htype hnullability =>
      obtain ⟨type', t', htype', hside, hsame⟩ := htype.simulates hbase hs ht hvalue
      have hnullability' := hsame.nullability hside.left hside.right hnullability
      refine ⟨_, t', .field kept nameReports type' badType t' typeReports nullability hname htype'
        hnullability', hside, ?_⟩
      exact ⟨⟨rfl, rfl, hsame, rfl⟩, hvalue.imp hside.sameType, rfl, rfl, rfl⟩

/-! ## Creations -/

/-- Properties of one name in types that are alike. -/
theorem AnonymousType.Alike.propertyNamed? {R : TypeId → TypeId → Prop} {a a' : AnonymousType}
    (h : a.Alike R a') (name : String) :
    Option.Rel (Property.Alike R) (a.propertyNamed? name) (a'.propertyNamed? name) := by
  have hproperties := h.properties
  rw [propertyNamed?_eq_find?, propertyNamed?_eq_find?]
  generalize a.properties = ps, a'.properties = qs at hproperties
  induction hproperties with
  | nil => exact .none
  | @cons p q ps qs hp _ ih =>
      by_cases hname : p.name = name
      · rw [List.find?_cons_of_pos (by simpa using hname),
          List.find?_cons_of_pos (by simpa [hp.name] using hname)]
        exact .some hp
      · rw [List.find?_cons_of_neg (by simpa using hname),
          List.find?_cons_of_neg (by simpa [hp.name] using hname)]
        exact ih

/-- Fields that are alike declare properties that are alike. -/
theorem ResolvedField.Alike.declaration? {R : TypeId → TypeId → Prop} {f g : ResolvedField}
    (h : f.Alike R g) {a a' : AnonymousType} (ha : a.Alike R a') :
    Option.Rel (PropertyDeclaration.Alike R) (f.declaration? a) (g.declaration? a') := by
  simp only [ResolvedField.declaration?, h.label, h.name, Option.bind_eq_bind]
  cases f.label with
  | none => exact .none
  | some label =>
      cases f.name with
      | none => exact .none
      | some name =>
          have hproperty := ha.propertyNamed? name
          simp only [Option.bind_some]
          generalize a.propertyNamed? name = x, a'.propertyNamed? name = y at hproperty
          cases hproperty with
          | none => exact .none
          | some hpq => exact .some ⟨rfl, hpq, h.field.type⟩

/-- Nodes of creations whose fields are alike. -/
theorem creationNode_alike {R : TypeId → TypeId → Prop} (source : Expr) (new : Option Position)
    {fields fields' : List ResolvedField} (h : List.Forall₂ (ResolvedField.Alike R) fields fields')
    {a a' : AnonymousType} (ha : a.Alike R a') :
    (creationNode ctx source new fields a).Alike R (creationNode ctx source new fields' a') := by
  have hfaulty : fields'.any (·.faulty) = fields.any (·.faulty) := by
    induction h with
    | nil => rfl
    | cons hf _ ih => rw [List.any_cons, List.any_cons, hf.faulty, ih]
  rw [creationNode, creationNode, hfaulty]
  refine .creation _ _ _ _ _ _ _ _ _ _ _ ha ?_ (BoundExpr.alikeAll_iff.mpr ?_) ?_
  · rw [List.forall₂_map_left_iff, List.forall₂_map_right_iff]
    exact h.imp fun _ _ hf => hf.field
  · rw [List.forall₂_map_left_iff, List.forall₂_map_right_iff]
    exact h.imp fun _ _ hf => hf.value
  · exact List.rel_filterMap (fun _ _ hf => hf.declaration? ha) h

/-! ## Expressions -/

mutual

/-- An expression is bound in any other store with the same diagnostics, and to a tree that is the
same but for ids. -/
theorem Binds.simulates (hfits : ctx.Fits base) {r q : Option Receiver} {e : Expr}
    {s s' t : Store} {b : BoundExpr} {ds : List Diagnostic} (h : Binds ctx r e s b s' ds)
    (hs : s.Regular base) (ht : t.Regular base)
    (hr : Option.Rel (Receiver.Alike (s.SameType t)) r q) :
    ∃ c t', Binds ctx q e t c t' ds ∧ SideBySide base s t s' t' ∧ b.Alike (s'.SameType t') c := by
  -- The induction is on the derivation in the first store. The second run starts in `t` and is
  -- built rule by rule; what was alike before a step is alike after it (`SideBySide.sameType`).
  match h with
  | .name _ name _ _ _ hrule =>
      obtain ⟨c, hc, halike⟩ := hrule.simulates hfits hs ht
      exact ⟨c, t, .name q name t c _ hc, .refl hs ht, halike⟩
  | .staticAccess _ p target name _ owner _ _ howner hrule =>
      have howner' := (ht.toSound.typeNamed ctx target).trans
        ((hs.toSound.typeNamed ctx target).symm.trans howner)
      have hhas := has_typeNamed ((hs.toSound.typeNamed ctx target).symm.trans howner)
      obtain ⟨c, hc, halike⟩ := hrule.simulates hfits.table hs ht hhas
      exact ⟨c, t, .staticAccess q p target name t owner c _ howner' hc, .refl hs ht, halike⟩
  | .instanceAccess _ p target name _ value _ ds _ ds' howner hvalue hrule =>
      have howner' := (ht.toSound.typeNamed ctx target).trans
        ((hs.toSound.typeNamed ctx target).symm.trans howner)
      obtain ⟨value', t', hvalue', hside, hsame⟩ := hvalue.simulates hfits hs ht hr
      obtain ⟨c, hc, halike⟩ := hrule.simulates hfits.table hside.left hside.right hsame
      exact ⟨c, t', .instanceAccess q p target name t value' t' ds c ds' howner' hvalue' hc, hside,
        halike⟩
  | .staticPath _ p left right _ owner _ _ howner hrule =>
      have howner' := (ht.toSound.typeNamed ctx left).trans
        ((hs.toSound.typeNamed ctx left).symm.trans howner)
      have hhas := has_typeNamed ((hs.toSound.typeNamed ctx left).symm.trans howner)
      obtain ⟨c, hc, halike⟩ := hrule.simulates hfits.table hs ht hhas
      exact ⟨c, t, .staticPath q p left right t owner c _ howner' hc, .refl hs ht, halike⟩
  | .unknownOwner _ p name right _ howner =>
      have howner' := (ht.toSound.typeNamed ctx (.identifier name)).trans
        ((hs.toSound.typeNamed ctx _).symm.trans howner)
      exact ⟨_, t, .unknownOwner q p name right t howner', .refl hs ht, .bad _ _ _ .nil⟩
  | .longPath _ p left right _ inner _ ds ds' howner hname hinner hrule =>
      have howner' := (ht.toSound.typeNamed ctx left).trans
        ((hs.toSound.typeNamed ctx left).symm.trans howner)
      obtain ⟨inner', t', hinner', hside, hsame⟩ := hinner.simulates hfits hs ht hr
      exact ⟨_, t', .longPath q p left right t inner' t' ds ds' howner' hname hinner'
        (hrule.simulates hsame), hside, .bad _ _ _ (.cons _ _ _ _ hsame .nil)⟩
  | .faultyTarget _ p target access _ bound _ ds hbound hfaulty =>
      obtain ⟨bound', t', hbound', hside, hsame⟩ := hbound.simulates hfits hs ht hr
      exact ⟨_, t', .faultyTarget q p target access t bound' t' ds hbound'
        (hsame.hasAnyErrors.trans hfaulty), hside, .bad _ _ _ (.cons _ _ _ _ hsame .nil)⟩
  | .badReceiver _ p target access _ bound _ ds shown hbound hclean hreceiver hshown =>
      obtain ⟨bound', t', hbound', hside, hsame⟩ := hbound.simulates hfits hs ht hr
      obtain ⟨type', hreceiver', hnone⟩ := hreceiver.simulates hside.left hside.right hsame
      cases hnone
      exact ⟨_, t', .badReceiver q p target access t bound' t' ds shown hbound'
        (hsame.hasAnyErrors.trans hclean) hreceiver'
        (hshown.simulates hside.left hside.right hsame), hside,
        .bad _ _ _ (.cons _ _ _ _ hsame .nil)⟩
  | .conditionalAccess _ p target access _ bound s₁ ds type accessed _ ds' lifted _ hbound hclean
      hreceiver haccess hlift =>
      obtain ⟨bound', t₁, hbound', hside₁, hsame⟩ := hbound.simulates hfits hs ht hr
      obtain ⟨type', hreceiver', htype⟩ := hreceiver.simulates hside₁.left hside₁.right hsame
      cases htype with
      | @some _ type' htype =>
          -- What follows the mark is bound with a receiver of its own.
          have hinside : Option.Rel (Receiver.Alike (s₁.SameType t₁)) (some ⟨target, type⟩)
              (some ⟨target, type'⟩) := .some ⟨rfl, htype⟩
          obtain ⟨accessed', t₂, haccess', hside₂, haccessed⟩ :=
            haccess.simulates hfits hside₁.left hside₁.right hinside
          obtain ⟨lifted', t₃, hlift', hside₃, hlifted⟩ :=
            hlift.simulates hfits.table hside₂.left hside₂.right haccessed.type?
          refine ⟨_, t₃, .conditionalAccess q p target access t bound' t₁ ds type' accessed' t₂ ds'
            lifted' t₃ hbound' (hsame.hasAnyErrors.trans hclean) hreceiver' haccess' hlift',
            (hside₁.trans hside₂).trans hside₃, ?_⟩
          exact .conditionalAccess _ _ _ _ _ _ _ (hsame.imp (hside₂.trans hside₃).sameType)
            (haccessed.imp hside₃.sameType) hlifted
  | .memberBinding receiver p name _ _ _ hrule =>
      cases hr with
      | @some _ receiver' hreceiver =>
          have hnode : receiver.node.Alike (s.SameType t) receiver'.node := by
            rw [Receiver.node, Receiver.node, hreceiver.source]
            exact .conditionalReceiver _ _ _ hreceiver.type
          obtain ⟨c, hc, halike⟩ := hrule.simulates hfits.table hs ht hnode
          exact ⟨c, t, .memberBinding receiver' p name t c _ hc, .refl hs ht, halike⟩
  | .invocation _ p callee arguments _ target _ ds bound _ ds' _ ds'' htarget hbound hrule =>
      obtain ⟨target', t₁, htarget', hside₁, hsame⟩ := htarget.simulates hfits hs ht hr
      obtain ⟨bound', t₂, hbound', hside₂, hsames⟩ := hbound.simulates hfits hside₁.left
        hside₁.right (relOption_imp (fun _ _ hx => hx.imp hside₁.sameType) hr)
      obtain ⟨c, hc, halike⟩ := hrule.simulates (hsame.imp hside₂.sameType) hsames
      exact ⟨c, t₂, .invocation q p callee arguments t target' t₁ ds bound' t₂ ds' c ds'' htarget'
        hbound' hc, hside₁.trans hside₂, halike⟩
  | .literal _ p l _ _ _ hrule =>
      obtain ⟨rfl, c, hc, halike⟩ := hrule.simulates hfits hs ht
      exact ⟨c, t, .literal q p l t c t hc, .refl hs ht, halike⟩
  | .binary _ p op left right _ boundLeft _ ds boundRight s₂ ds' _ _ ds'' hleft hright hrule =>
      obtain ⟨left', t₁, hleft', hside₁, hsame⟩ := hleft.simulates hfits hs ht hr
      obtain ⟨right', t₂, hright', hside₂, hsame'⟩ := hright.simulates hfits hside₁.left
        hside₁.right (relOption_imp (fun _ _ hx => hx.imp hside₁.sameType) hr)
      obtain ⟨rfl, c, hc, halike⟩ := hrule.simulates hfits hside₂.left hside₂.right
        (hsame.imp hside₂.sameType) hsame'
      exact ⟨c, t₂, .binary q p op left right t left' t₁ ds right' t₂ ds' c t₂ ds'' hleft' hright'
        hc, hside₁.trans hside₂, halike⟩
  | .parenthesized _ p inner _ _ _ _ hinner =>
      obtain ⟨c, t', hc, hside, halike⟩ := hinner.simulates hfits hs ht hr
      exact ⟨c, t', .parenthesized q p inner t c t' _ hc, hside, halike⟩
  | .creation _ p new initializers _ resolved s₁ ds type _ hresolved hintern =>
      obtain ⟨resolved', t₁, hresolved', hside₁, hsames⟩ := hresolved.simulates hfits hs ht hr
      have hfields : List.Forall₂ (AnonymousField.Alike (s₁.SameType t₁))
          (resolved.map (·.field)) (resolved'.map (·.field)) := by
        rw [List.forall₂_map_left_iff, List.forall₂_map_right_iff]
        exact hsames.imp fun _ _ hf => hf.field
      obtain ⟨type', t₂, hintern', hside₂, htype⟩ :=
        SideBySide.intern hfits.table hside₁.left hside₁.right hfields hintern
      refine ⟨_, t₂, .creation q p new initializers t resolved' t₁ ds type' t₂ hresolved' hintern',
        hside₁.trans hside₂, creationNode_alike _ _ ?_ htype⟩
      exact hsames.imp fun _ _ hf => hf.imp hside₂.sameType
  | .error _ p text _ => exact ⟨_, t, .error q p text t, .refl hs ht, .bad _ _ _ .nil⟩

/-- Expressions are bound in order in any other store. -/
theorem BindsAll.simulates (hfits : ctx.Fits base) {r q : Option Receiver} {es : List Expr}
    {s s' t : Store} {bs : List BoundExpr} {ds : List Diagnostic} (h : BindsAll ctx r es s bs s' ds)
    (hs : s.Regular base) (ht : t.Regular base)
    (hr : Option.Rel (Receiver.Alike (s.SameType t)) r q) :
    ∃ cs t', BindsAll ctx q es t cs t' ds ∧ SideBySide base s t s' t' ∧
      BoundExpr.AlikeAll (s'.SameType t') bs cs := by
  match h with
  | .nil _ _ => exact ⟨[], t, .nil q t, .refl hs ht, .nil⟩
  | .cons _ e es _ b _ ds bs _ ds' hb hbs =>
      obtain ⟨c, t₁, hc, hside₁, hsame⟩ := hb.simulates hfits hs ht hr
      obtain ⟨cs, t₂, hcs, hside₂, hsames⟩ := hbs.simulates hfits hside₁.left hside₁.right
        (relOption_imp (fun _ _ hx => hx.imp hside₁.sameType) hr)
      exact ⟨c :: cs, t₂, .cons q e es t c t₁ ds cs t₂ ds' hc hcs, hside₁.trans hside₂,
        .cons _ _ _ _ (hsame.imp hside₂.sameType) hsames⟩

/-- Initializers are bound in order in any other store. -/
theorem BindsFields.simulates (hfits : ctx.Fits base) {r q : Option Receiver} {index : Nat}
    {used : List String} {inits : List (Initializer Expr)} {s s' t : Store}
    {fields : List ResolvedField} {ds : List Diagnostic}
    (h : BindsFields ctx r index used inits s fields s' ds) (hs : s.Regular base)
    (ht : t.Regular base) (hr : Option.Rel (Receiver.Alike (s.SameType t)) r q) :
    ∃ fields' t', BindsFields ctx q index used inits t fields' t' ds ∧
      SideBySide base s t s' t' ∧ List.Forall₂ (ResolvedField.Alike (s'.SameType t')) fields fields'
      := by
  match h with
  | .nil _ index used _ => exact ⟨[], t, .nil q index used t, .refl hs ht, .nil⟩
  | .cons _ index used init rest _ value _ ds field _ ds' others _ ds'' hvalue hfield hothers =>
      obtain ⟨value', t₁, hvalue', hside₁, hsame⟩ := hvalue.simulates hfits hs ht hr
      obtain ⟨field', t₂, hfield', hside₂, hsame'⟩ :=
        hfield.simulates hfits.table hside₁.left hside₁.right hsame
      have hside := hside₁.trans hside₂
      -- The names in use are those of the fields before, which are the same.
      rw [← hsame'.name] at hothers
      obtain ⟨others', t₃, hothers', hside₃, hsames⟩ := hothers.simulates hfits hside₂.left
        hside₂.right (relOption_imp (fun _ _ hx => hx.imp hside.sameType) hr)
      refine ⟨field' :: others', t₃, ?_, hside.trans hside₃,
        .cons (hsame'.imp hside₃.sameType) hsames⟩
      exact .cons q index used init rest t value' t₁ ds field' t₂ ds' others' t₃ ds'' hvalue'
        hfield' hothers'

end

end AnonymousObjects
