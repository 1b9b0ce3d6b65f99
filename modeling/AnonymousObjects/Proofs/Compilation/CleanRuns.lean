import AnonymousObjects.Proofs.Binding.Alignment
import AnonymousObjects.Proofs.Binding.Reports
import AnonymousObjects.Proofs.Compilation.Members
import AnonymousObjects.Text.NameTable

/-!
# Runs without reports

A program that is compiled without a report leaves well-formed types only. `Store.Clean` is the
invariant: no type stands for a mistake, and the anonymous types have names and types of properties
that source text can ask for. `Binds.keeps_clean` says that binding without a mistake keeps it, and
`bindAll_clean` what that means for a whole run.
-/

namespace AnonymousObjects

open Syntax (Expr Initializer MemberDecl Name Program isWord)

mutual

/-- An anonymous type without a mistake: its properties have identifiers as names, no two of them
the same, and types that values may have. -/
inductive CleanAnonymous (s : Store) : AnonymousType → Prop where
  | properties (a) :
      (∀ p ∈ a.properties, isWord p.name.toList = true) → (a.properties.map (·.name)).Nodup →
      (∀ p ∈ a.properties, CleanType s p.type) → CleanAnonymous s a

/-- A type that a property may have: a value type, a class, a nullable type, or an anonymous type
without a mistake. -/
inductive CleanType (s : Store) : TypeId → Prop where
  | value (id name) : s.table.get? id = some ⟨.value, name⟩ → CleanType s id
  | reference (id name) : s.table.get? id = some ⟨.reference, name⟩ → CleanType s id
  | nullable (id inner name) : s.table.get? id = some ⟨.nullable inner, name⟩ → CleanType s id
  | anonymous (id parts name a) :
      s.table.get? id = some ⟨.anonymous parts, name⟩ → a ∈ s.registry.types → a.id = id →
      CleanAnonymous s a → CleanType s id

end

/-- A store without types that stand for mistakes or come from them. -/
structure Store.Clean (s : Store) : Prop where
  noErrors : s.table.NoErrors
  types : ∀ a ∈ s.registry.types, CleanAnonymous s a

variable {ctx : Context} {base : TypeTable} {s s' : Store} {b : BoundExpr} {ds : List Diagnostic}

/-! ## Stores -/

mutual

/-- An anonymous type without a mistake stays so in a store with more types. -/
theorem CleanAnonymous.mono {a : AnonymousType} (h : CleanAnonymous s a) (hext : s.Extends s') :
    CleanAnonymous s' a := by
  match h with
  | .properties _ hwords hnames htypes =>
      exact .properties a hwords hnames fun p hp => (htypes p hp).mono hext

/-- A type without a mistake stays so in a store with more types. -/
theorem CleanType.mono {id : TypeId} (h : CleanType s id) (hext : s.Extends s') :
    CleanType s' id := by
  match h with
  | .value _ name hget => exact .value id name (hext.table.get? hget)
  | .reference _ name hget => exact .reference id name (hext.table.get? hget)
  | .nullable _ inner name hget => exact .nullable id inner name (hext.table.get? hget)
  | .anonymous _ parts name a hget ha hid hclean =>
      exact .anonymous id parts name a (hext.table.get? hget) (hext.types.subset ha) hid
        (hclean.mono hext)

end

namespace Store

/-- A store stays clean when it is extended by types that stand for no mistake. -/
theorem Clean.extend (h : s.Clean) (hext : s.Extends s') (hnoErrors : s'.table.NoErrors)
    (hnew : ∀ a ∈ s'.registry.types, a ∈ s.registry.types ∨ CleanAnonymous s' a) : s'.Clean where
  noErrors := hnoErrors
  types a ha := (hnew a ha).elim (fun hold => (h.types a hold).mono hext) id

/-- A type of a clean store that a field may have is without a mistake. -/
theorem Clean.type (hs : s.Sound base) (h : s.Clean) {id : TypeId} {d : TypeDef}
    (hd : s.table.get? id = some d) (husable : d.shape.isUsable = true) : CleanType s id := by
  obtain ⟨shape, name⟩ := d
  cases shape with
  | value => exact .value id name hd
  | reference => exact .reference id name hd
  | nullable inner => exact .nullable id inner name hd
  | anonymous parts =>
      obtain ⟨a, ha, hid⟩ := hs.anonymous id parts name hd
      exact .anonymous id parts name a hd ha hid (h.types a ha)
  | void => simp [TypeShape.isUsable, TypeShape.isVoid] at husable
  | pointer target => simp [TypeShape.isUsable, TypeShape.isUnsafe] at husable
  | restricted => simp [TypeShape.isUsable, TypeShape.isRestricted] at husable
  | error => simpa [TypeShape.isError] using h.noErrors id _ hd

/-- The anonymous type of fields without a mistake is without one. -/
theorem Clean.intern (hbase : base.Base) (hs : s.Sound base) (h : s.Clean)
    {fields : List AnonymousField} {span : Span} {a : AnonymousType}
    (hintern : s.intern fields span = .ok (a, s')) (hnames : (fields.map (·.name)).Nodup)
    (hfields : ∀ f ∈ fields, isWord f.name.toList = true ∧ CleanType s f.type) : s'.Clean := by
  rcases intern_cases hintern with ⟨rfl, _, _⟩ | hcreate
  · exact h
  · -- Only a type that is new has to be looked at, and its properties are those of the fields.
    have hext := (hs.create hbase hcreate).2
    obtain ⟨_, name, hadd, htypes, hkey, _⟩ :=
      create_spec (hbase.builtins.grows hs.grows) hcreate
    have hproperty : ∀ p ∈ a.properties, ∃ f ∈ fields, f.name = p.name ∧ f.type = p.type := by
      intro p hp
      have hmem : (p.name, p.type) ∈ AnonymousKey.ofFields fields :=
        hkey ▸ List.mem_map.mpr ⟨p, hp, rfl⟩
      obtain ⟨f, hf, heq⟩ := List.mem_map.mp hmem
      exact ⟨f, hf, (Prod.mk.inj heq).1, (Prod.mk.inj heq).2⟩
    have hmap := AnonymousType.names_of_key hkey
    have htable : _ = s'.table := congrArg Prod.snd hadd
    refine h.extend hext ?_ fun c hc => ?_
    · rw [← htable]
      exact h.noErrors.add rfl
    · rw [htypes] at hc
      rcases List.mem_append.mp hc with hc | hc
      · exact .inl hc
      · rw [List.mem_singleton.mp hc]
        refine .inr (.properties a (fun p hp => ?_) (hmap ▸ hnames) fun p hp => ?_)
        · obtain ⟨f, hf, hname, _⟩ := hproperty p hp
          exact hname ▸ (hfields f hf).1
        · obtain ⟨f, hf, _, htype⟩ := hproperty p hp
          exact htype ▸ (hfields f hf).2.mono hext

end Store

/-- Lifting a type adds no mistaken one. -/
theorem LiftRule.keeps_clean {type lifted : Option TypeId} (h : LiftRule s type lifted s')
    (hclean : s.Clean) : s'.Clean := by
  cases h with
  | untyped => exact hclean
  | void => exact hclean
  | nullable id d lifted t _ _ hmade =>
      rcases TypeTable.nullableOf_cases hmade with ⟨e, _, _, hfound⟩ | ⟨_, _, _, hsame⟩
      · rcases s.table.findOrAdd_cases (·.shape = .nullable id) ⟨.nullable id, e.name ++ "?"⟩
          with ⟨id', _, _, _, hold⟩ | ⟨_, hadded⟩
        · obtain ⟨_, rfl⟩ := Prod.mk.inj (hfound.trans hold)
          exact hclean
        · obtain rfl : t = _ := congrArg Prod.snd (hfound.trans hadded)
          exact hclean.extend ⟨.add _ rfl, List.prefix_rfl⟩ (hclean.noErrors.add rfl)
            fun a ha => .inl ha
      · obtain ⟨_, rfl⟩ := Prod.mk.inj hsame
        exact hclean

/-! ## Expressions -/

/-- Nothing is asked of a store for a field without a mistake, whose name and type are clean. -/
theorem FieldRule.keeps_clean {index : Nat} {used : List String} {init : Initializer Expr}
    {value : BoundExpr} {field : ResolvedField} (hs : s.Sound base)
    (h : FieldRule ctx index used init s value field s' ds)
    (hlabel : init.label.all (·.isProper) = true) (hproper : init.value.isProper = true)
    (hvalue : value.hasAnyErrors = false) (hfaulty : field.faulty = false) (hclean : s.Clean) :
    s' = s ∧ isWord field.field.name.toList = true ∧ CleanType s field.field.type := by
  obtain ⟨⟨n, id, d, hfield⟩, rfl, _⟩ := h.of_clean hvalue hfaulty
  obtain ⟨hname, htype⟩ := hfield.fieldEq
  refine ⟨rfl, ?_, htype ▸ hclean.type hs hfield.get hfield.usable⟩
  rw [hname]
  exact isProper_of_fieldName? hlabel hproper hfield.fieldName

mutual

/-- Binding an expression without a mistake keeps the store clean. -/
theorem Binds.keeps_clean (hfits : ctx.Fits base) {r : Option Receiver} {e : Expr} {s s' : Store}
    {b : BoundExpr} {ds : List Diagnostic} (h : Binds ctx r e s b s' ds) (he : e.isProper = true)
    (hs : s.Sound base) (hb : b.hasAnyErrors = false) (hclean : s.Clean) : s'.Clean := by
  match h with
  | .name .. => exact hclean
  | .staticAccess .. => exact hclean
  | .instanceAccess _ _ _ _ _ _ _ _ _ _ _ hvalue hrule =>
      exact Binds.keeps_clean hfits hvalue (Bool.and_eq_true_iff.mp he).1 hs
        (hrule.receiver_clean hb) hclean
  | .staticPath .. => exact hclean
  | .unknownOwner .. => exact hclean
  | .longPath .. => simp [BoundExpr.hasAnyErrors] at hb
  | .faultyTarget .. => simp [BoundExpr.hasAnyErrors] at hb
  | .badReceiver .. => simp [BoundExpr.hasAnyErrors] at hb
  | .conditionalAccess _ _ _ _ _ _ _ _ _ _ _ _ _ _ hbound _ _ haccess hlift =>
      simp only [BoundExpr.hasAnyErrors, Bool.or_eq_false_iff] at hb
      simp only [Expr.isProper, Bool.and_eq_true] at he
      have hsound := (hbound.sound hfits hs).1
      have htarget := Binds.keeps_clean hfits hbound he.1 hs hb.1 hclean
      exact hlift.keeps_clean (Binds.keeps_clean hfits haccess he.2 hsound hb.2 htarget)
  | .memberBinding .. => exact hclean
  | .invocation _ _ _ _ _ _ _ _ _ _ _ _ _ htarget hbound hrule =>
      simp only [Expr.isProper, Bool.and_eq_true] at he
      obtain ⟨name, f, rfl, _, rfl⟩ := hrule.call_of_clean hb
      have hcallee := Binds.keeps_clean hfits htarget he.1 hs rfl hclean
      exact BindsAll.keeps_clean hfits hbound he.2 (htarget.sound hfits hs).1
        (by simpa [BoundExpr.hasAnyErrors] using hb) hcallee
  | .literal _ _ _ _ _ _ hrule =>
      obtain ⟨rfl, _⟩ := hrule.spec hfits hs
      exact hclean
  | .binary _ _ _ _ _ _ _ _ _ _ _ _ _ _ _ hleft hright hrule =>
      simp only [Expr.isProper, Bool.and_eq_true] at he
      obtain ⟨hcleanLeft, hcleanRight⟩ := hrule.parts_clean hb
      have hsound := (hleft.sound hfits hs).1
      have hleft' := Binds.keeps_clean hfits hleft he.1 hs hcleanLeft hclean
      have hright' := Binds.keeps_clean hfits hright he.2 hsound hcleanRight hleft'
      obtain ⟨rfl, _⟩ := hrule.valid hfits (hright.sound hfits hsound).1
      exact hright'
  | .parenthesized _ _ _ _ _ _ _ hinner => exact Binds.keeps_clean hfits hinner he hs hb hclean
  | .creation _ _ _ _ _ resolved t _ _ _ hresolved htype =>
      have hfields := ((creationNode_hasAnyErrors _ _ _ _ _).mp hb).1
      obtain ⟨hclean', hnew⟩ := BindsFields.keeps_clean hfits hresolved he hs hfields hclean
      -- Nested creations are clean by induction, so the types of all fields are.
      refine hclean'.intern hfits.table (hresolved.sound hfits hs).1 htype ?_ fun f hf => ?_
      · rw [List.map_map]
        exact hresolved.nodup
      · obtain ⟨x, hx, rfl⟩ := List.mem_map.mp hf
        exact hnew x hx
  | .error .. => exact hclean

/-- Binding several expressions without a mistake adds no mistaken type. -/
theorem BindsAll.keeps_clean (hfits : ctx.Fits base) {r : Option Receiver} {es : List Expr}
    {s s' : Store} {bs : List BoundExpr} {ds : List Diagnostic}
    (h : BindsAll ctx r es s bs s' ds) (hes : Expr.allProper es = true) (hs : s.Sound base)
    (hbs : BoundExpr.anyHasErrors bs = false) (hclean : s.Clean) : s'.Clean := by
  match h with
  | .nil .. => exact hclean
  | .cons _ _ _ _ _ _ _ _ _ _ hb hrest =>
      simp only [BoundExpr.anyHasErrors, Bool.or_eq_false_iff] at hbs
      simp only [Expr.allProper, Bool.and_eq_true] at hes
      have hfirst := Binds.keeps_clean hfits hb hes.1 hs hbs.1 hclean
      exact BindsAll.keeps_clean hfits hrest hes.2 (hb.sound hfits hs).1 hbs.2 hfirst

/-- Binding clean fields adds no mistaken type. -/
theorem BindsFields.keeps_clean (hfits : ctx.Fits base) {r : Option Receiver} {index : Nat}
    {used : List String} {inits : List (Initializer Expr)} {s s' : Store}
    {fields : List ResolvedField} {ds : List Diagnostic}
    (h : BindsFields ctx r index used inits s fields s' ds)
    (hinits : Expr.initializersProper inits = true) (hs : s.Sound base)
    (hfields : FieldsClean fields) (hclean : s.Clean) :
    s'.Clean ∧ ∀ f ∈ fields, isWord f.field.name.toList = true ∧ CleanType s' f.field.type := by
  match h with
  | .nil .. => exact ⟨hclean, by simp⟩
  | .cons _ _ _ init rest _ value t _ field u _ others _ _ hvalue hfield hothers =>
      obtain ⟨⟨hlabel, hproper⟩, hrest⟩ :=
        List.forall_mem_cons.mp (Expr.initializersProper_iff.mp hinits)
      obtain ⟨⟨hcleanValue, hfaulty⟩, hcleanOthers⟩ := fieldsClean_cons.mp hfields
      rw [hfield.value_eq] at hcleanValue
      have hsound := (hvalue.sound hfits hs).1
      have hsound' := (hfield.sound hfits hsound).1
      have hext := (hothers.sound hfits hsound').2
      have hfirst := Binds.keeps_clean hfits hvalue hproper hs hcleanValue hclean
      obtain ⟨rfl, hname, htype⟩ :=
        hfield.keeps_clean hsound hlabel hproper hcleanValue hfaulty hfirst
      obtain ⟨hclean', hnew⟩ := BindsFields.keeps_clean hfits hothers
        (Expr.initializersProper_iff.mpr hrest) hsound hcleanOthers hfirst
      -- The type of the first field was clean before the others were bound, and stays so.
      refine ⟨hclean', fun f hf => ?_⟩
      rcases List.mem_cons.mp hf with rfl | hf
      · exact ⟨hname, htype.mono hext⟩
      · exact hnew f hf

end

/-! ## Members -/

namespace Compilation

variable {p : Program} {nullable : Option Bool} {file : Option String}

/-- Binding expressions of a program without a report adds no mistaken type. -/
theorem Reachable.keeps_clean (h : (ofProgram p nullable file).Reachable s)
    {member : Option ContainingMember} {es : List Expr} {bs : List BoundExpr}
    (hbs : BindsAll ((ofProgram p nullable file).context member) none es s bs s' [])
    (hes : ∀ e ∈ es, e.Readable) (hclean : s.Clean) : s'.Clean := by
  have hproper : Expr.allProper es = true :=
    Expr.allProper_iff.mpr fun e he => (hes e he).proper
  exact hbs.keeps_clean (ofProgram_fits p nullable file member) hproper h.sound
    ((hbs.reports_iff hproper).mp rfl) hclean

mutual

/-- Binding a member without a report keeps the store clean. -/
theorem BindsMember.keeps_clean {m : MemberDecl} {s s' : Store} {bound : BoundMember}
    (h : BindsMember (ofProgram p nullable file) m s bound s') (hm : m.Readable)
    (hs : (ofProgram p nullable file).Reachable s) (hreports : bound.allDiagnostics = [])
    (hclean : s.Clean) : s'.Clean := by
  match h with
  | .member position kind name exprs locals _ bs t ds bound _ hexprs hlocals =>
      cases hm with
      | member _ _ _ _ _ hreadable hreadable' =>
          obtain ⟨rfl, hreports'⟩ := List.append_eq_nil_iff.mp hreports
          have hbody := hs.keeps_clean hexprs hreadable hclean
          exact BindsMembers.keeps_clean hlocals hreadable' (hs.trans hexprs.reaches) hreports'
            hbody

/-- Binding members without a report adds no mistaken type. -/
theorem BindsMembers.keeps_clean {ms : List MemberDecl} {s s' : Store} {bound : List BoundMember}
    (h : BindsMembers (ofProgram p nullable file) ms s bound s') (hms : ∀ m ∈ ms, m.Readable)
    (hs : (ofProgram p nullable file).Reachable s)
    (hreports : BoundMember.allDiagnosticsOf bound = []) (hclean : s.Clean) : s'.Clean := by
  match h with
  | .nil _ => exact hclean
  | .cons m ms _ bound t others _ hm hrest =>
      obtain ⟨hfirst, hothers⟩ := List.append_eq_nil_iff.mp hreports
      have hreaches := (yields_of_bindsMember hm).reaches (bindMember_moves m)
      have hclean' := BindsMember.keeps_clean hm (hms m (by simp)) hs hfirst hclean
      exact BindsMembers.keeps_clean hrest (fun m hm => hms m (by simp [hm])) (hs.trans hreaches)
        hothers hclean'

end

end Compilation

/-! ## Compilations -/

/-- A program that is compiled without a report leaves no type that stands for a mistake, and
anonymous types without mistakes only. -/
theorem bindAll_clean [Text.CharacterNames] {source : List Char} {p : Program}
    (hp : Program.parse source = .ok p) (nullable : Option Bool) (file : Option String) :
    let c := Compilation.ofProgram p nullable file
    ∃ members, c.bindAll.result = .ok members ∧
      (c.problems = [] → BoundMember.allDiagnosticsOf members = [] →
        c.bindAll.store.table.NoErrors ∧
          ∀ a ∈ c.bindAll.store.registry.types, CleanAnonymous c.bindAll.store a) := by
  intro c
  have hreadable := Program.parse_readable hp
  obtain ⟨members, s', hmembers, hresult, hstore⟩ :=
    Compilation.bindAll_total nullable file hreadable
  refine ⟨members, hresult, fun hproblems hreports => ?_⟩
  have hstart : c.store.Clean :=
    { noErrors := (Declared.ofProgram_valid file p).noErrors hproblems
      types := by simp [Compilation.store] }
  have hclean := hmembers.keeps_clean hreadable .refl hreports hstart
  rw [← hstore] at hclean
  exact ⟨hclean.noErrors, hclean.types⟩

/-- The script `new { a = 1 };` is compiled without a report. -/
theorem bindAll_clean_of_script :
    let source := "script \x7b new \x7b a = 1 \x7d; \x7d".toList
    let script : MemberDecl := ⟨⟨1, 1⟩, .script, "<script>",
      [.creation (some ⟨1, 10⟩) (some ⟨1, 10⟩)
        [⟨some ⟨1, 16⟩, some ⟨"a", some ⟨1, 16⟩⟩, .literal (some ⟨1, 20⟩) ⟨.int, .int 1⟩⟩]], []⟩
    let c := Compilation.ofProgram { members := [script] } none none
    Program.parse source = .ok { members := [script] } ∧ c.problems = [] ∧
      ∃ members, c.bindAll.result = .ok members ∧ BoundMember.allDiagnosticsOf members = [] ∧
        c.bindAll.store.table.NoErrors ∧
          ∀ a ∈ c.bindAll.store.registry.types, CleanAnonymous c.bindAll.store a := by
  intro source script c
  have hparse : Program.parse source = .ok { members := [script] } := rfl
  have hproblems : c.problems = [] := by decide +kernel
  have hreports : c.bindAll.result.toOption.map BoundMember.allDiagnosticsOf = some [] := by
    decide +kernel
  -- The name keeps unification from running the compilation.
  have hrun := bindAll_clean hparse none none
  rw [show Compilation.ofProgram { members := [script] } none none = c from rfl] at hrun
  obtain ⟨members, hresult, hclean⟩ := hrun
  have hnone : BoundMember.allDiagnosticsOf members = [] := by
    rw [hresult] at hreports
    exact Option.some.inj hreports
  exact ⟨hparse, hproblems, members, hresult, hnone, hclean hproblems hnone⟩

end AnonymousObjects
