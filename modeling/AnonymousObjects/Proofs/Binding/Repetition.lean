import AnonymousObjects.Proofs.Binding.Progress

/-!
# Binding again

Whatever a binding had to create is found when the same expression is bound again. `Binds.again`
says so for any store that holds what the first binding left: the second binding makes the same
node and the same reports, and it leaves its store as it was. Each operation and each rule that
works on the store has a lemma of this form, since a single type that is not found again would
show in all the nodes above it.
-/

namespace AnonymousObjects

open Syntax (Expr Initializer Literal Name)

/-! ## Types that are found again -/

namespace TypeTable

variable {t u : TypeTable} {d : TypeDef} {id : TypeId} {p : TypeDef → Bool}

/-- The first type with a property is the first one in a longer table. -/
theorem find?_mono (h : t.defs <+: u.defs) (hfind : t.find? p = some id) :
    u.find? p = some id := by
  obtain ⟨more, hmore⟩ := h
  simp only [find?, Option.map_eq_some_iff] at hfind ⊢
  obtain ⟨i, hi, rfl⟩ := hfind
  exact ⟨i, by simp [← hmore, List.findIdx?_append, hi], rfl⟩

/-- A type that was found or added is the first one with its property. -/
theorem find?_findOrAdd (t : TypeTable) (hd : p d = true) :
    (t.findOrAdd p d).2.find? p = some (t.findOrAdd p d).1 := by
  unfold findOrAdd
  cases hfind : t.find? p with
  | some id => exact hfind
  | none =>
    have hindex : t.defs.findIdx? p = none := by simpa [find?] using hfind
    simp [add, find?, size, List.findIdx?_append, hindex, hd]

/-- What was found or added is found in a longer table. -/
theorem findOrAdd_again (hd : p d = true) (h : (t.findOrAdd p d).2.defs <+: u.defs) :
    u.findOrAdd p d = ((t.findOrAdd p d).1, u) := by
  have hfind := find?_mono h (find?_findOrAdd t hd)
  rw [findOrAdd, hfind]

/-- An error type that was asked for is the same in a longer table. -/
theorem ensureError_again {name : String} (h : (t.ensureError name).2.defs <+: u.defs) :
    u.ensureError name = ((t.ensureError name).1, u) :=
  findOrAdd_again (by simp [TypeShape.isError]) h

/-- A nullable type that was asked for is the same in a longer table. -/
theorem nullableOf_again {inner : TypeId} {made : TypeId × TypeTable}
    (h : t.nullableOf inner = .ok made) (hmade : t.defs <+: made.2.defs)
    (hlonger : made.2.defs <+: u.defs) : u.nullableOf inner = .ok (made.1, u) := by
  rcases nullableOf_cases h with ⟨d, hd, hvalue, rfl⟩ | ⟨d, hd, hother, rfl⟩
  · have hget : u.get inner = .ok d := get_eq_ok_iff.mpr (get?_mono (hmade.trans hlonger) hd)
    simp only [nullableOf, hget, bind, Except.bind, hvalue]
    rw [findOrAdd_again (by simp) hlonger]
    rfl
  · have hget : u.get inner = .ok d := get_eq_ok_iff.mpr (get?_mono (hmade.trans hlonger) hd)
    simp only [nullableOf, hget, bind, Except.bind]
    rfl

/-- Source text names the same types in a longer table. -/
theorem Grows.typeNamed (h : t.Grows u) (ctx : Context) (e : Expr) :
    ctx.typeNamed u e = ctx.typeNamed t e := by
  cases e <;> simp only [Context.typeNamed, h.lookup]

end TypeTable

namespace Store

variable {base : TypeTable} {s s' t : Store} {fields : List AnonymousField} {span : Span}
  {a : AnonymousType}

/-- The registry finds the type that it gave. -/
theorem Sound.find?_intern (hbase : base.Base) (hs : s.Sound base)
    (h : s.intern fields span = .ok (a, s')) :
    s'.registry.find? (AnonymousKey.ofFields fields) = some a := by
  cases hfind : s.registry.find? (AnonymousKey.ofFields fields) with
  | some b =>
    simp only [intern, hfind, pure, Except.pure, Except.ok.injEq, Prod.mk.injEq] at h
    obtain ⟨rfl, rfl⟩ := h
    exact hfind
  | none =>
    have hcreate : s.create (AnonymousKey.ofFields fields) span = .ok (a, s') := by
      simpa only [intern, hfind] using h
    obtain ⟨_, _, _, htypes, hkey, _⟩ := create_spec (hbase.builtins.grows hs.grows) hcreate
    simp only [Registry.find?] at hfind ⊢
    simp [htypes, List.find?_append, hfind, hkey]

/-- A list of fields gets the type that it got before, and nothing is created. -/
theorem Sound.intern_again (hbase : base.Base) (hs : s.Sound base)
    (h : s.intern fields span = .ok (a, s')) (hextends : s'.Extends t) :
    t.intern fields span = .ok (a, t) := by
  obtain ⟨more, hmore⟩ := hextends.types
  have hfind := hs.find?_intern hbase h
  have hagain : t.registry.find? (AnonymousKey.ofFields fields) = some a := by
    simp only [Registry.find?] at hfind ⊢
    rw [← hmore, List.find?_append, hfind, Option.some_or]
  simp only [intern, hagain, pure, Except.pure]

end Store

/-! ## Rules -/

variable {ctx : Context} {base t u : TypeTable} {s s' w : Store} {b : BoundExpr}
  {ds : List Diagnostic}

/-- A node is described the same in a table with more types. -/
theorem Describes.grows {text : Text} (h : Describes t b text) (hg : t.Grows u) :
    Describes u b text := by
  cases h with
  | typed id d hid hd => exact .typed id d hid (hg.get? hd)
  | untyped hnone => exact .untyped hnone

/-- A name is bound the same in a table with more types. -/
theorem NameRule.grows {name : Name} (h : NameRule ctx t name b ds) (hg : t.Grows u) :
    NameRule ctx u name b ds := by
  cases h with
  | global g hglobal => exact .global g hglobal
  | function f hglobal hfunction => exact .function f hglobal hfunction
  | typeName id hglobal hfunction hid =>
      exact .typeName id hglobal hfunction ((hg.lookup _).trans hid)
  | undefined hglobal hfunction hnone =>
      exact .undefined hglobal hfunction ((hg.lookup _).trans hnone)

/-- A static field is bound the same in a table with more types. -/
theorem StaticFieldRule.grows {source : Expr} {owner : TypeId} {name : Name}
    (h : StaticFieldRule ctx t source owner name b ds) (hg : t.Grows u) :
    StaticFieldRule ctx u source owner name b ds := by
  cases h with
  | found field hfield => exact .found field ((hg.findField _ _ _).trans hfield)
  | missing d hnone hd => exact .missing d ((hg.findField _ _ _).trans hnone) (hg.get? hd)

/-- An instance field is bound the same in a table with more types. -/
theorem InstanceFieldRule.grows {source : Expr} {receiver : BoundExpr} {name : Name}
    (h : InstanceFieldRule ctx t source receiver name b ds) (hg : t.Grows u) :
    InstanceFieldRule ctx u source receiver name b ds := by
  cases h with
  | faulty hfaulty => exact .faulty hfaulty
  | found id field hclean hid hfield =>
      exact .found id field hclean hid ((hg.findField _ _ _).trans hfield)
  | missing shown hclean hnone hshown =>
      have hsame : (u.findField · name.text false) = (t.findField · name.text false) :=
        funext fun id => hg.findField id _ _
      exact .missing shown hclean (by rw [hsame, hnone]) (hshown.grows hg)

/-- Member bindings refer to the same type in a table with more types. -/
theorem ReceiverRule.grows {type : Option TypeId} (h : ReceiverRule t b type) (hg : t.Grows u) :
    ReceiverRule u b type := by
  cases h with
  | untyped hnone => exact .untyped hnone
  | nullable id inner name hid hd => exact .nullable id inner name hid (hg.get? hd)
  | reference id d hid hd hreference => exact .reference id d hid (hg.get? hd) hreference
  | other id d hid hd hother => exact .other id d hid (hg.get? hd) hother

/-- A type that was lifted once is lifted to the same, and nothing is created. -/
theorem LiftRule.again {type lifted : Option TypeId} (h : LiftRule s type lifted s')
    (hextends : s.Extends s') (hagain : s'.Extends w) : LiftRule w type lifted w := by
  cases h with
  | untyped => exact .untyped
  | void id d hd hvoid => exact .void id d (hagain.table.get? hd) hvoid
  | nullable id d lifted v hd hvoid hmade =>
      have hmade' := TypeTable.nullableOf_again hmade hextends.table.initial hagain.table.initial
      exact .nullable id d lifted w.table (hagain.table.get? (hextends.table.get? hd)) hvoid hmade'

/-- The same nodes can be parts of strings in a table with more types. -/
theorem JoinRule.grows {joins : Bool} (h : JoinRule t b joins) (hg : t.Grows u) :
    JoinRule u b joins := by
  cases h with
  | literal source type l hb hnone => exact .literal source type l hb hnone
  | untyped hnone hother => exact .untyped hnone hother
  | typed id d hid hd => exact .typed id d hid (hg.get? hd)

/-- A sum has the same type in a table with more types. -/
theorem SumRule.grows {int string : TypeId} {left right : BoundExpr} {type : Option TypeId}
    (h : SumRule t int string left right type) (hg : t.Grows u) :
    SumRule u int string left right type := by
  cases h with
  | int hleft hright => exact .int hleft hright
  | joined hint hstring hleft hright =>
      exact .joined hint hstring (hleft.grows hg) (hright.grows hg)
  | leftApart hint hstring hleft => exact .leftApart hint hstring (hleft.grows hg)
  | rightApart hint hstring hleft hright =>
      exact .rightApart hint hstring (hleft.grows hg) (hright.grows hg)
  | other hint hstring => exact .other hint hstring

/-- A builtin type is the same in every sound store. -/
theorem Store.Sound.ensure_again (hfits : ctx.Fits base) (hs : s.Sound base) (hw : w.Sound base)
    (k : Builtin) : w.table.ensure k = ((s.table.ensure k).1, w.table) := by
  obtain ⟨hlookup, _, _⟩ := hs.ensure hfits k
  obtain ⟨hlookup', _, hsame⟩ := hw.ensure hfits k
  rw [hlookup, Option.some.injEq] at hlookup'
  exact Prod.ext hlookup'.symm hsame

/-- A literal is bound the same in every sound store. -/
theorem LiteralRule.again {source : Expr} {l : Literal} (hfits : ctx.Fits base)
    (h : LiteralRule s source l b s') (hs : s.Sound base) (hw : w.Sound base) :
    LiteralRule w source l b w := by
  cases h with
  | untyped hk => exact .untyped hk
  | typed k hk =>
      have hrule : LiteralRule w source l _ _ := .typed k hk
      rwa [hs.ensure_again hfits hw k] at hrule

/-- A binary node is bound the same later on, and nothing is created. -/
theorem BinaryRule.again {source : Expr} {op : String} {left right : BoundExpr}
    (hfits : ctx.Fits base) (h : BinaryRule ctx source op s left right b s' ds)
    (hs : s.Sound base) (hw : w.Sound base) (hextends : s.Extends w) :
    BinaryRule ctx source op w left right b w ds := by
  -- The types of sums are builtin, so asking for them leaves either store as it is.
  have hint := hs.ensure_again hfits hw .int
  have hstring := hs.ensure_again hfits hw .string
  have hsame := hs.withSumTypes hfits
  have hsame' := hw.withSumTypes hfits
  have hunchanged := (hs.ensure hfits .int).2.2
  cases h with
  | faulty hfaulty => exact .faulty hfaulty
  | sum id hleft hright hsum =>
      rw [hsame, hunchanged] at hsum
      have hsum' : SumRule w.withSumTypes.table (w.table.ensure .int).1
          ((w.table.ensure .int).2.ensure .string).1 left right (some id) := by
        rw [hsame', hint, hstring]
        exact hsum.grows hextends.table
      have hrule : BinaryRule ctx source op w left right _ _ _ := .sum id hleft hright hsum'
      rwa [hsame'] at hrule
  | mistake shown shown' hleft hright hsum hshown hshown' =>
      rw [hsame, hunchanged] at hsum
      rw [hsame] at hshown hshown'
      have hsum' : SumRule w.withSumTypes.table (w.table.ensure .int).1
          ((w.table.ensure .int).2.ensure .string).1 left right none := by
        rw [hsame', hint, hstring]
        exact hsum.grows hextends.table
      have hrule : BinaryRule ctx source op w left right _ _ _ :=
        .mistake shown shown' hleft hright hsum' (by rw [hsame']; exact hshown.grows hextends.table)
          (by rw [hsame']; exact hshown'.grows hextends.table)
      rwa [hsame'] at hrule

/-! ## Fields -/

/-- A field gets the type that it got before, and nothing is created. -/
theorem FieldTypeRule.again {value : BoundExpr} {span : Span} {id : TypeId} {faulty : Bool}
    (h : FieldTypeRule s value span id faulty s' ds) (hextends : s.Extends s')
    (hagain : s'.Extends w) : FieldTypeRule w value span id faulty w ds := by
  have hall := hextends.trans hagain
  have herror : ∀ name, s' = { s with table := (s.table.ensureError name).2 } →
      w.table.ensureError name = ((s.table.ensureError name).1, w.table) := by
    intro name hs'
    subst hs'
    exact TypeTable.ensureError_again hagain.table.initial
  cases h with
  | faulty id hfaulty hid => exact .faulty id hfaulty hid
  | faultyUntyped hfaulty hnone =>
      have hrule : FieldTypeRule w value span _ _ _ _ := .faultyUntyped hfaulty hnone
      rwa [herror _ rfl] at hrule
  | untyped hclean hnone =>
      have hrule : FieldTypeRule w value span _ _ _ _ := .untyped hclean hnone
      rwa [herror _ rfl] at hrule
  | void id d hclean hid hd hvoid =>
      have hrule : FieldTypeRule w value span _ _ _ _ :=
        .void id d hclean hid (hall.table.get? hd) hvoid
      rwa [herror _ rfl] at hrule
  | denied id d hclean hid hd hvoid hdenied =>
      exact .denied id d hclean hid (hall.table.get? hd) hvoid hdenied
  | usable id d hclean hid hd hvoid husable =>
      exact .usable id d hclean hid (hall.table.get? hd) hvoid husable

/-- The nullability of a field is the same in a longer table. -/
theorem TypeTable.Grows.nullability (hg : t.Grows u) {id : TypeId} {nullable : Option Bool}
    {n : Nullability} (h : Nullability.ofType t id nullable = .ok n) :
    Nullability.ofType u id nullable = .ok n := by
  match nullable with
  | none => exact h
  | some false => exact h
  | some true =>
    simp only [Nullability.ofType, bind, Except.bind] at h ⊢
    cases hshape : t.shape id with
    | error e => simp [hshape] at h
    | ok shape =>
      obtain ⟨d, hd, hname⟩ := shape_eq_ok_iff.mp hshape
      have hshape' : u.shape id = .ok shape := shape_eq_ok_iff.mpr ⟨d, hg.get? hd, hname⟩
      simpa only [hshape, hshape'] using h

/-- A field is resolved as it was before, and nothing is created. -/
theorem FieldRule.again {index : Nat} {used : List String} {init : Initializer Expr}
    {value : BoundExpr} {field : ResolvedField}
    (h : FieldRule ctx index used init s value field s' ds) (hextends : s.Extends s')
    (hagain : s'.Extends w) : FieldRule ctx index used init w value field w ds := by
  cases h with
  | field kept nameReports type badType _ typeReports nullability hname htype hnullability =>
      exact .field kept nameReports type badType w typeReports nullability hname
        (htype.again hextends hagain) (hagain.table.nullability hnullability)

/-! ## Expressions -/

mutual

/-- An expression is bound to the same node, with the same reports, in every store that holds what
its binding left, and that store does not change. -/
theorem Binds.again (hfits : ctx.Fits base) {r : Option Receiver} {e : Expr} {s s' w : Store}
    {b : BoundExpr} {ds : List Diagnostic} (h : Binds ctx r e s b s' ds) (hs : s.Sound base)
    (hw : w.Sound base) (hagain : s'.Extends w) : Binds ctx r e w b w ds := by
  -- The induction is on the first derivation. Every store on its way is held by the last one, so
  -- each of its steps is repeated in `w` and stays there.
  have hall := (h.sound hfits hs).2.trans hagain
  match h with
  | .name _ name _ _ _ hrule => exact .name r name w b ds (hrule.grows hall.table)
  | .staticAccess _ p target name _ owner _ _ howner hrule =>
      exact .staticAccess r p target name w owner b ds ((hall.table.typeNamed ctx _).trans howner)
        (hrule.grows hall.table)
  | .instanceAccess _ p target name _ value _ ds _ ds' howner hvalue hrule =>
      exact .instanceAccess r p target name w value w ds b ds'
        ((hall.table.typeNamed ctx _).trans howner) (hvalue.again hfits hs hw hagain)
        (hrule.grows hagain.table)
  | .staticPath _ p left right _ owner _ _ howner hrule =>
      exact .staticPath r p left right w owner b ds ((hall.table.typeNamed ctx _).trans howner)
        (hrule.grows hall.table)
  | .unknownOwner _ p name right _ howner =>
      exact .unknownOwner r p name right w ((hall.table.typeNamed ctx _).trans howner)
  | .longPath _ p left right _ inner _ ds ds' howner hname hinner hrule =>
      exact .longPath r p left right w inner w ds ds' ((hall.table.typeNamed ctx _).trans howner)
        hname (hinner.again hfits hs hw hagain) hrule
  | .faultyTarget _ p target access _ bound _ _ hbound hfaulty =>
      exact .faultyTarget r p target access w bound w ds (hbound.again hfits hs hw hagain) hfaulty
  | .badReceiver _ p target access _ bound _ ds shown hbound hclean hreceiver hshown =>
      exact .badReceiver r p target access w bound w ds shown (hbound.again hfits hs hw hagain)
        hclean (hreceiver.grows hagain.table) (hshown.grows hagain.table)
  | .conditionalAccess _ p target access _ bound s₁ ds type accessed s₂ ds' lifted _ hbound hclean
      hreceiver haccess hlift =>
      obtain ⟨hsound₁, _⟩ := hbound.sound hfits hs
      obtain ⟨hsound₂, hextends₂⟩ := haccess.sound hfits hsound₁
      have hextends₃ := (hsound₂.reaches hfits.table hlift.reaches).2
      have hagain₂ := hextends₃.trans hagain
      have hagain₁ := hextends₂.trans hagain₂
      exact .conditionalAccess r p target access w bound w ds type accessed w ds' lifted w
        (hbound.again hfits hs hw hagain₁) hclean (hreceiver.grows hagain₁.table)
        (haccess.again hfits hsound₁ hw hagain₂) (hlift.again hextends₃ hagain)
  | .memberBinding receiver p name _ _ _ hrule =>
      exact .memberBinding receiver p name w b ds (hrule.grows hall.table)
  | .invocation _ p callee arguments _ target s₁ ds bound _ ds' _ ds'' htarget hbound hrule =>
      obtain ⟨hsound₁, _⟩ := htarget.sound hfits hs
      have hagain₁ := (hbound.sound hfits hsound₁).2.trans hagain
      exact .invocation r p callee arguments w target w ds bound w ds' b ds''
        (htarget.again hfits hs hw hagain₁) (hbound.again hfits hsound₁ hw hagain) hrule
  | .literal _ p l _ _ _ hrule => exact .literal r p l w b w (hrule.again hfits hs hw)
  | .binary _ p op left right _ boundLeft s₁ ds boundRight s₂ ds' _ _ ds'' hleft hright hrule =>
      obtain ⟨hsound₁, _⟩ := hleft.sound hfits hs
      obtain ⟨hsound₂, hextends₂⟩ := hright.sound hfits hsound₁
      obtain ⟨rfl, _⟩ := hrule.valid hfits hsound₂
      exact .binary r p op left right w boundLeft w ds boundRight w ds' b w ds''
        (hleft.again hfits hs hw (hextends₂.trans hagain)) (hright.again hfits hsound₁ hw hagain)
        (hrule.again hfits hsound₂ hw hagain)
  | .parenthesized _ p inner _ _ _ _ hinner =>
      exact .parenthesized r p inner w b w ds (hinner.again hfits hs hw hagain)
  | .creation _ p new initializers _ resolved s₁ ds type _ hresolved hintern =>
      obtain ⟨hsound₁, _⟩ := hresolved.sound hfits hs
      have hextends₂ := (hsound₁.step hfits.table (.intern _ _ _ _ _ hintern)).2
      exact .creation r p new initializers w resolved w ds type w
        (hresolved.again hfits hs hw (hextends₂.trans hagain))
        (hsound₁.intern_again hfits.table hintern hagain)
  | .error _ p text _ => exact .error r p text w

/-- Several expressions are bound again to the same nodes, and nothing is created. -/
theorem BindsAll.again (hfits : ctx.Fits base) {r : Option Receiver} {es : List Expr}
    {s s' w : Store} {bs : List BoundExpr} {ds : List Diagnostic}
    (h : BindsAll ctx r es s bs s' ds) (hs : s.Sound base) (hw : w.Sound base)
    (hagain : s'.Extends w) : BindsAll ctx r es w bs w ds := by
  match h with
  | .nil _ _ => exact .nil r w
  | .cons _ e es _ b _ ds bs _ ds' hb hbs =>
      obtain ⟨hsound₁, _⟩ := hb.sound hfits hs
      have hagain₁ := (hbs.sound hfits hsound₁).2.trans hagain
      exact .cons r e es w b w ds bs w ds' (hb.again hfits hs hw hagain₁)
        (hbs.again hfits hsound₁ hw hagain)

/-- Fields are bound again to the same, and nothing is created. -/
theorem BindsFields.again (hfits : ctx.Fits base) {r : Option Receiver} {index : Nat}
    {used : List String} {inits : List (Initializer Expr)} {s s' w : Store}
    {fields : List ResolvedField} {ds : List Diagnostic}
    (h : BindsFields ctx r index used inits s fields s' ds) (hs : s.Sound base) (hw : w.Sound base)
    (hagain : s'.Extends w) : BindsFields ctx r index used inits w fields w ds := by
  match h with
  | .nil _ _ _ _ => exact .nil r index used w
  | .cons _ _ _ init rest _ value _ ds field _ ds' others _ ds'' hvalue hfield hothers =>
      obtain ⟨hsound₁, _⟩ := hvalue.sound hfits hs
      obtain ⟨hsound₂, hextends₂⟩ := hfield.sound hfits hsound₁
      have hagain₂ := (hothers.sound hfits hsound₂).2.trans hagain
      exact .cons r index used init rest w value w ds field w ds' others w ds''
        (hvalue.again hfits hs hw (hextends₂.trans hagain₂)) (hfield.again hextends₂ hagain₂)
        (hothers.again hfits hsound₂ hw hagain)

end

/-! ## Compilations -/

namespace Compilation

/-- The store after expressions have been bound one after another, each inside a member of its own.
A fault ends the binding of one expression only. -/
def storeAfter (c : Compilation) (s : Store) (bindings : List (Option ContainingMember × Expr)) :
    Store :=
  bindings.foldl (fun s x => ((c.context x.1).bindExpr none x.2 s).store) s

/-- Any number of bindings leave a store that is reached from the one before. -/
theorem storeAfter_reaches (c : Compilation) (s : Store)
    (bindings : List (Option ContainingMember × Expr)) : s.Reaches (c.storeAfter s bindings) := by
  induction bindings generalizing s with
  | nil => exact .refl
  | cons x rest ih => exact (Context.bindExpr_moves none x.2 s).trans (ih _)

/-- An expression that was bound in a reachable store is bound to the same node when it is bound
again, whatever else has been bound in between: the reports are the same, and neither the types nor
the anonymous types change. -/
theorem bindExpr_again (p : Syntax.Program) (nullable : Option Bool) (file : Option String)
    (member : Option ContainingMember) (e : Expr) {s : Store}
    (hs : (ofProgram p nullable file).Reachable s) {b : BoundExpr}
    (h : (((ofProgram p nullable file).context member).bindExpr none e s).result = .ok b)
    (between : List (Option ContainingMember × Expr)) :
    let c := ofProgram p nullable file
    let first := (c.context member).bindExpr none e s
    let t := c.storeAfter first.store between
    let second := (c.context member).bindExpr none e t
    second.result = .ok b ∧ second.store = t ∧ second.diagnostics = first.diagnostics := by
  intro c first t second
  have hfits := ofProgram_fits p nullable file member
  have hbinds := Context.binds_of_yields (Action.yields_of_result h)
  have hfirst := (hbinds.sound hfits hs.sound).1
  obtain ⟨hsound, hextends⟩ := hfirst.reaches hfits.table (c.storeAfter_reaches first.store between)
  exact (Context.yields_of_binds (hbinds.again hfits hs.sound hsound hextends)).eq

/-- `new { outer = new { x = 1 } }` is bound to the same node again after `new { x = null }`, which
creates types of its own. -/
theorem bindExpr_again_of_creation :
    let c := ofProgram {} none none
    let creation (label : String) (value : Expr) : Expr :=
      .creation none none [⟨none, some ⟨label, none⟩, value⟩]
    let e := creation "outer" (creation "x" (.literal none ⟨.int, .int 1⟩))
    let other := creation "x" (.literal none ⟨.null, .none⟩)
    let first := (c.context none).bindExpr none e c.store
    let t := c.storeAfter first.store [(none, other)]
    let second := (c.context none).bindExpr none e t
    c.Reachable c.store ∧ ∃ b, first.result = .ok b ∧
      second.result = .ok b ∧ second.store = t ∧ second.diagnostics = first.diagnostics := by
  intro c creation e other first t second
  have hbound : first.result.toOption.isSome = true := by decide +kernel
  cases hresult : first.result with
  | error fault => simp [hresult, Except.toOption] at hbound
  | ok b => exact ⟨.refl, b, rfl, bindExpr_again {} none none none e .refl hresult [(none, other)]⟩

end Compilation

end AnonymousObjects
