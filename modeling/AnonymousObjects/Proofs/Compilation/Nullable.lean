import AnonymousObjects.Proofs.Binding.Annotations
import AnonymousObjects.Proofs.Compilation.Creations
import AnonymousObjects.Text.NameTable

/-!
# The nullable option

Whether nullable references are switched on, switched off or left open decides on the annotations of
the fields of creations, and on nothing else. Two compilations of a program that differ in the
option declare the same, and binding the members leaves the same store, the same diagnostics and
trees that are the same once annotations are forgotten (`BindsMembers.unannotated`);
`bindAll_annotations` adds what the option makes of the fields.
-/

namespace AnonymousObjects

open Syntax (MemberDecl Program)

/-! ## Annotations -/

/-- `Annotates nullable d n` says that fields of a type with the definition `d` have the nullability
`n`. -/
inductive Annotates : Option Bool → TypeDef → Nullability → Prop where
  | unset (d) : Annotates none d .unknown
  | disabled (d) : Annotates (some false) d .notAnnotated
  | reference (name) : Annotates (some true) ⟨.reference, name⟩ .annotated
  | anonymous (parts name) : Annotates (some true) ⟨.anonymous parts, name⟩ .annotated
  | other (d) :
      d.shape ≠ .reference → (∀ parts, d.shape ≠ .anonymous parts) →
      Annotates (some true) d .notAnnotated

/-- The nullability of the fields of a type that exists. -/
theorem Nullability.annotates_of_ofType {t : TypeTable} {id : TypeId} {nullable : Option Bool}
    {n : Nullability} (hid : t.Has id) (h : Nullability.ofType t id nullable = .ok n) :
    ∃ d, t.get? id = some d ∧ Annotates nullable d n := by
  obtain ⟨⟨shape, name⟩, hd⟩ := hid
  refine ⟨_, hd, ?_⟩
  match nullable with
  | none =>
    obtain rfl : Nullability.unknown = n := Except.ok.inj h
    exact .unset _
  | some false =>
    obtain rfl : Nullability.notAnnotated = n := Except.ok.inj h
    exact .disabled _
  | some true =>
    have hshape : t.shape id = .ok shape := TypeTable.shape_eq_ok_iff.mpr ⟨_, hd, rfl⟩
    simp only [Nullability.ofType, hshape, bind, Except.bind] at h
    obtain rfl := Except.ok.inj h
    cases shape with
    | reference => exact .reference name
    | anonymous parts => exact .anonymous parts name
    | value | void | pointer | restricted | nullable | error =>
        exact .other _ (by simp) (by simp)

/-! ## Members without annotations -/

namespace BoundMember

mutual

/-- A member whose trees have no annotations. -/
def unannotated : BoundMember → BoundMember
  | ⟨member, exprs, locals, diagnostics⟩ =>
    ⟨member, BoundExpr.unannotatedAll exprs, unannotatedOf locals, diagnostics⟩

/-- Members whose trees have no annotations. -/
def unannotatedOf : List BoundMember → List BoundMember
  | [] => []
  | m :: ms => unannotated m :: unannotatedOf ms

end

mutual

/-- A member without annotations has the same diagnostics. -/
theorem allDiagnostics_unannotated (m : BoundMember) :
    m.unannotated.allDiagnostics = m.allDiagnostics := by
  obtain ⟨member, exprs, locals, diagnostics⟩ := m
  simp only [unannotated, allDiagnostics, allDiagnosticsOf_unannotated locals]

/-- Several members without annotations have the same diagnostics. -/
theorem allDiagnosticsOf_unannotated (ms : List BoundMember) :
    allDiagnosticsOf (unannotatedOf ms) = allDiagnosticsOf ms := by
  cases ms with
  | nil => rfl
  | cons m ms =>
      simp only [unannotatedOf, allDiagnosticsOf, allDiagnostics_unannotated m,
        allDiagnosticsOf_unannotated ms]

end

end BoundMember

namespace Compilation

/-- The compilation that leaves the option open. -/
def unannotated (c : Compilation) : Compilation :=
  { c with nullable := none }

variable {c : Compilation}

mutual

/-- A member is bound without annotations as it is bound with them. -/
theorem BindsMember.unannotated {m : MemberDecl} {s s' : Store} {bound : BoundMember}
    (h : BindsMember c m s bound s') : BindsMember c.unannotated m s bound.unannotated s' := by
  match h with
  | .member position kind name exprs locals _ bs t ds bound _ hexprs hlocals =>
      exact .member position kind name exprs locals s _ t ds _ s' hexprs.unannotated
        hlocals.unannotated

/-- Members are bound the same without annotations. -/
theorem BindsMembers.unannotated {ms : List MemberDecl} {s s' : Store} {bound : List BoundMember}
    (h : BindsMembers c ms s bound s') :
    BindsMembers c.unannotated ms s (BoundMember.unannotatedOf bound) s' := by
  match h with
  | .nil _ => exact .nil s
  | .cons m ms _ bound t others _ hm hms =>
      exact .cons m ms s _ t _ s' hm.unannotated hms.unannotated

end

/-- What the option makes of the fields of every creation in bound members. -/
theorem BindsMembers.annotates {p : Program} {nullable : Option Bool} {file : Option String}
    {ms : List MemberDecl} {s s' : Store} {bound : List BoundMember}
    (h : BindsMembers (ofProgram p nullable file) ms s bound s')
    (hs : (ofProgram p nullable file).Reachable s) :
    ∀ x ∈ BoundMember.creationsOf bound, ∀ f ∈ x.2.fields,
      ∃ d, s'.table.get? f.type = some d ∧ Annotates nullable d f.nullability := by
  intro x hx f hf
  obtain ⟨_, _, type, fields, _, _, _, hnode, hcreation⟩ := h.fits hs x hx
  rw [hnode] at hf
  exact Nullability.annotates_of_ofType (hcreation.typed f hf) (hcreation.annotated f hf)

/-- Two compilations of a program that differ in the nullable option declare the same. They bind all
members with the same diagnostics and leave the same store, and their trees are the same but for the
annotations of fields, which are those that the option asks for. -/
theorem bindAll_annotations [Text.CharacterNames] {source : List Char} {p : Program}
    (hp : Program.parse source = .ok p) (file : Option String) (nullable nullable' : Option Bool) :
    let c := ofProgram p nullable file
    let c' := ofProgram p nullable' file
    (c'.problems = c.problems ∧ c'.symbols = c.symbols ∧ c'.table = c.table) ∧
      c'.bindAll.store = c.bindAll.store ∧ c'.bindAll.diagnostics = c.bindAll.diagnostics ∧
      ∃ bound bound', c.bindAll.result = .ok bound ∧ c'.bindAll.result = .ok bound' ∧
        BoundMember.unannotatedOf bound' = BoundMember.unannotatedOf bound ∧
        ∀ x ∈ BoundMember.creationsOf bound, ∀ f ∈ x.2.fields,
          ∃ d, c.bindAll.store.table.get? f.type = some d ∧ Annotates nullable d f.nullability := by
  intro c c'
  have hreadable := Syntax.Program.parse_readable hp
  obtain ⟨bound, s, hbound, hresult, hstore⟩ := bindAll_total nullable file hreadable
  obtain ⟨bound', s', hbound', hresult', hstore'⟩ := bindAll_total nullable' file hreadable
  -- Both runs, without their annotations, are the one run that leaves the option open.
  obtain ⟨hsame, hsameStore⟩ := hbound.unannotated.unique hbound'.unannotated
  have hdiagnostics := (yields_of_bindsMembers hbound).eq.2.2
  have hdiagnostics' := (yields_of_bindsMembers hbound').eq.2.2
  refine ⟨⟨rfl, rfl, rfl⟩, ?_, ?_, bound, bound', hresult, hresult', hsame, ?_⟩
  · rw [hstore, hstore', hsameStore]
  · show (c'.bindMembers p.members c'.store).diagnostics =
      (c.bindMembers p.members c.store).diagnostics
    rw [hdiagnostics, hdiagnostics', ← BoundMember.allDiagnosticsOf_unannotated bound', hsame,
      BoundMember.allDiagnosticsOf_unannotated]
  · rw [hstore]
    exact hbound.annotates .refl

/-- A creation in a creation, with the option on and off. -/
theorem bindAll_annotations_of_nested :
    let source := "method m \x7b new \x7b a = \"text\", b = new \x7b c = 1 \x7d \x7d; \x7d".toList
    ∃ p, Program.parse source = .ok p ∧
      let c := ofProgram p (some true) none
      let c' := ofProgram p (some false) none
      (c'.problems = c.problems ∧ c'.symbols = c.symbols ∧ c'.table = c.table) ∧
        c'.bindAll.store = c.bindAll.store ∧ c'.bindAll.diagnostics = c.bindAll.diagnostics ∧
        ∃ bound bound', c.bindAll.result = .ok bound ∧ c'.bindAll.result = .ok bound' ∧
          BoundMember.unannotatedOf bound' = BoundMember.unannotatedOf bound ∧
          ∀ x ∈ BoundMember.creationsOf bound, ∀ f ∈ x.2.fields,
            ∃ d, c.bindAll.store.table.get? f.type = some d ∧
              Annotates (some true) d f.nullability := by
  intro source
  have hp : Program.parse source = .ok _ := rfl
  exact ⟨_, hp, bindAll_annotations hp none (some true) (some false)⟩

end Compilation

end AnonymousObjects
