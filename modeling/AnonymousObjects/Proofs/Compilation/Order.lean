import AnonymousObjects.Proofs.Binding.Simulation
import AnonymousObjects.Proofs.Compilation.Members
import AnonymousObjects.Proofs.Compilation.Tables
import AnonymousObjects.Proofs.Types.Coverage
import AnonymousObjects.Text.NameTable

/-!
# The order of members

All members of a program share one store, so the ids in the tree of a member depend on the members
that were bound before it. Nothing else does. A member is bound in any two reachable stores with the
same diagnostics and to trees that are the same but for ids (`BindsMember.simulates`), and what is
new in the one store is new in the other, so runs over the same members end with the same types
(`BindsMembers.coveredBy`). `bindMembers_alike` says both of any two runs over the members of a
program.
-/

namespace AnonymousObjects.Compilation

open Store (SideBySide CoveredBy)
open Syntax (MemberDecl Program)

/-! ## Members in two stores -/

section

variable {c : Compilation} {base : TypeTable}

mutual

/-- A member is bound in any other store with the same diagnostics, and to a tree that is the same
but for ids. -/
theorem BindsMember.simulates (hfits : ∀ member, (c.context member).Fits base) {m : MemberDecl}
    {s s' t : Store} {bound : BoundMember} (h : BindsMember c m s bound s') (hs : s.Regular base)
    (ht : t.Regular base) :
    ∃ bound' t', BindsMember c m t bound' t' ∧ SideBySide base s t s' t' ∧
      bound.Alike (s'.SameType t') bound' := by
  match h with
  | .member position kind name exprs locals _ bs s₁ ds bound _ hexprs hlocals =>
      obtain ⟨bs', t₁, hexprs', hside₁, hsame⟩ := hexprs.simulates (hfits _) hs ht .none
      obtain ⟨bound', t₂, hlocals', hside₂, hsames⟩ :=
        hlocals.simulates hfits hside₁.left hside₁.right
      exact ⟨_, t₂, .member position kind name exprs locals t bs' t₁ ds bound' t₂ hexprs' hlocals',
        hside₁.trans hside₂, .member _ _ _ _ _ ds (hsame.imp hside₂.sameType) hsames⟩

/-- Members are bound in order in any other store. -/
theorem BindsMembers.simulates (hfits : ∀ member, (c.context member).Fits base)
    {ms : List MemberDecl} {s s' t : Store} {bound : List BoundMember}
    (h : BindsMembers c ms s bound s') (hs : s.Regular base) (ht : t.Regular base) :
    ∃ bound' t', BindsMembers c ms t bound' t' ∧ SideBySide base s t s' t' ∧
      BoundMember.AlikeAll (s'.SameType t') bound bound' := by
  match h with
  | .nil _ => exact ⟨[], t, .nil t, .refl hs ht, .nil⟩
  | .cons m ms _ bound s₁ others _ hm hms =>
      obtain ⟨bound', t₁, hm', hside₁, hsame⟩ := hm.simulates hfits hs ht
      obtain ⟨others', t₂, hms', hside₂, hsames⟩ := hms.simulates hfits hside₁.left hside₁.right
      exact ⟨_, t₂, .cons m ms t bound' t₁ others' t₂ hm' hms', hside₁.trans hside₂,
        .cons _ _ _ _ (hsame.imp hside₂.sameType) hsames⟩

end

end

/-! ## Members of a run -/

section

variable {c : Compilation} {ms : List MemberDecl} {m : MemberDecl} {s s' t : Store}
  {bound bound' : BoundMember} {bs : List BoundMember}

/-- The stores before and after one of the members of a run. -/
theorem BindsMembers.binds_of_mem (h : BindsMembers c ms s bs s') (hmem : (m, bound) ∈ ms.zip bs) :
    ∃ u u', s.Reaches u ∧ BindsMember c m u bound u' ∧ u'.Reaches s' := by
  induction ms generalizing s bs with
  | nil => simp at hmem
  | cons first ms ih =>
      cases h with
      | cons _ _ _ bound₁ t others _ hfirst hms =>
          rw [List.zip_cons_cons, List.mem_cons] at hmem
          cases hmem with
          | inl heq =>
              obtain ⟨rfl, rfl⟩ := Prod.mk.inj heq
              exact ⟨s, t, .refl, hfirst, hms.reaches⟩
          | inr hmem =>
              obtain ⟨u, u', hbefore, hm, hafter⟩ := ih hms hmem
              exact ⟨u, u', hfirst.reaches.trans hbefore, hm, hafter⟩

/-- Each member of a run is bound in it. -/
theorem BindsMembers.exists_of_mem (h : BindsMembers c ms s bs s') (hm : m ∈ ms) :
    ∃ bound, (m, bound) ∈ ms.zip bs := by
  rw [← List.map_fst_zip h.length_eq.ge] at hm
  obtain ⟨⟨_, bound⟩, hmem, rfl⟩ := List.mem_map.mp hm
  exact ⟨bound, hmem⟩

end

/-! ## Two runs over the members of a program -/

section

variable {p : Program} {nullable : Option Bool} {file : Option String} {ms ns : List MemberDecl}
  {s s' t' : Store} {bs cs : List BoundMember}

/-- The stores of a program are regular. -/
theorem Reachable.regular (h : (ofProgram p nullable file).Reachable s) :
    s.Regular (Declared.ofProgram file p).table := by
  have hbase := (Declared.ofProgram_valid file p).base
  exact (Store.Regular.init hbase (Declared.ofProgram_regular file p)).reaches hbase h

/-- The store that binding members leaves is reachable. -/
theorem BindsMembers.reachable {c : Compilation} (h : BindsMembers c ms c.store bs s') :
    c.Reachable s' :=
  h.reaches

/-- A member that occurs in two runs is bound alike in both. -/
theorem BindsMembers.alike
    (h : BindsMembers (ofProgram p nullable file) ms (ofProgram p nullable file).store bs s')
    (h' : BindsMembers (ofProgram p nullable file) ns (ofProgram p nullable file).store cs t')
    {m : MemberDecl} {bound bound' : BoundMember} (hm : (m, bound) ∈ ms.zip bs)
    (hm' : (m, bound') ∈ ns.zip cs) : bound.Alike (s'.SameType t') bound' := by
  have hfits := ofProgram_fits p nullable file
  obtain ⟨u, u', hu, hbound, hleft⟩ := h.binds_of_mem hm
  obtain ⟨v, v', hv, hbound', hright⟩ := h'.binds_of_mem hm'
  -- The member is bound from `v` as it was from `u`, and from `v` in one way only.
  obtain ⟨other, w, hother, hside, halike⟩ :=
    hbound.simulates hfits (Reachable.regular hu) (Reachable.regular hv)
  obtain ⟨rfl, rfl⟩ := hbound'.unique hother
  -- What the ids denote stays the same until the end of each run.
  have hext := (hside.left.toSound.reaches (hfits none).table hleft).2
  have hext' := (hside.right.toSound.reaches (hfits none).table hright).2
  exact halike.imp fun _ _ hsame => hsame.mono hext hext'

/-- A member of the second run creates no type that the second run does not have. -/
theorem BindsMember.coveredBy {m : MemberDecl} {bound : BoundMember}
    (h : BindsMember (ofProgram p nullable file) m s bound s')
    (hs : (ofProgram p nullable file).Reachable s)
    (h' : BindsMembers (ofProgram p nullable file) ns (ofProgram p nullable file).store cs t')
    (hm : m ∈ ns) (hcovered : s.CoveredBy t') : s'.CoveredBy t' := by
  have hfits := ofProgram_fits p nullable file
  obtain ⟨bound', hmem⟩ := h'.exists_of_mem hm
  obtain ⟨v, v', hv, hbound', hright⟩ := h'.binds_of_mem hmem
  obtain ⟨other, w, hother, hside, _⟩ := h.simulates hfits hs.regular (Reachable.regular hv)
  obtain ⟨rfl, rfl⟩ := hbound'.unique hother
  have hext := (hside.right.toSound.reaches (hfits none).table hright).2
  intro id hid
  rcases hside.covered id hid with hold | ⟨id', hsame⟩
  · obtain ⟨id', hsame⟩ := hcovered id hold
    exact ⟨id', hsame.mono hside.leftExtends (.refl t')⟩
  · exact ⟨id', hsame.mono (.refl s') hext⟩

/-- A run whose members are all in a second run creates no type that the second does not have. -/
theorem BindsMembers.coveredBy (h : BindsMembers (ofProgram p nullable file) ms s bs s')
    (hs : (ofProgram p nullable file).Reachable s)
    (h' : BindsMembers (ofProgram p nullable file) ns (ofProgram p nullable file).store cs t')
    (hms : ∀ m ∈ ms, m ∈ ns) (hcovered : s.CoveredBy t') : s'.CoveredBy t' := by
  induction ms generalizing s bs with
  | nil =>
      cases h
      exact hcovered
  | cons m ms ih =>
      cases h with
      | cons _ _ _ bound t others _ hm hrest =>
          have hnext := hm.coveredBy hs h' (hms m (by simp)) hcovered
          exact ih hrest (hs.trans hm.reaches) (fun m hm => hms m (by simp [hm])) hnext

/-- At the start there are the declared types only, and they are in every store. -/
theorem Reachable.covers_store (h : (ofProgram p nullable file).Reachable t') :
    (ofProgram p nullable file).store.CoveredBy t' := by
  have hbase := (Declared.ofProgram_valid file p).base
  have hstart : (ofProgram p nullable file).Reachable (ofProgram p nullable file).store := .refl
  intro id hid
  exact ⟨id, hstart.sound.sameType hbase h.sound hid⟩

/-- The results of binding do not depend on the order in which the members of a program are bound.
Take two runs over members of the program, each from the declarations on. A member that occurs in
both is bound to trees that are the same but for ids, and the ids denote the same structures; its
diagnostics are the same in both. If the same members occur in both runs, then both end with the
same keys and the same numbers of types and of anonymous types. -/
theorem bindMembers_alike [Text.CharacterNames] {source : List Char}
    (hp : Program.parse source = .ok p)
    (nullable : Option Bool) (file : Option String) (hms : ∀ m ∈ ms, m ∈ p.members)
    (hns : ∀ m ∈ ns, m ∈ p.members) :
    let c := ofProgram p nullable file
    let first := c.bindMembers ms c.store
    let second := c.bindMembers ns c.store
    ∃ bs cs, first.result = .ok bs ∧ second.result = .ok cs ∧ bs.length = ms.length ∧
      cs.length = ns.length ∧
      (∀ m bound bound', (m, bound) ∈ ms.zip bs → (m, bound') ∈ ns.zip cs →
        bound.Alike (first.store.SameType second.store) bound' ∧
          bound'.allDiagnostics = bound.allDiagnostics) ∧
      ((∀ m, m ∈ ms ↔ m ∈ ns) →
        (∀ fields, first.store.HoldsKey fields ↔ second.store.HoldsKey fields) ∧
          second.store.table.size = first.store.table.size ∧
          second.store.registry.types.length = first.store.registry.types.length) := by
  intro c first second
  have hreadable := Program.parse_readable hp
  have hstart : c.Reachable c.store := .refl
  obtain ⟨bs, s', hfirst⟩ := bindsMembers_total ms (fun m hm => hreadable m (hms m hm)) hstart
  obtain ⟨cs, t', hsecond⟩ := bindsMembers_total ns (fun m hm => hreadable m (hns m hm)) hstart
  obtain ⟨hresult, hstore, _⟩ := (yields_of_bindsMembers hfirst).eq
  obtain ⟨hresult', hstore', _⟩ := (yields_of_bindsMembers hsecond).eq
  refine ⟨bs, cs, hresult, hresult', hfirst.length_eq, hsecond.length_eq, ?_, ?_⟩
  · intro m bound bound' hm hm'
    have halike := hfirst.alike hsecond hm hm'
    rw [show first.store = s' from hstore, show second.store = t' from hstore']
    exact ⟨halike, halike.allDiagnostics⟩
  · intro hsame
    rw [show first.store = s' from hstore, show second.store = t' from hstore']
    have hs := hfirst.reachable.regular
    have ht := hsecond.reachable.regular
    -- Each run covers the other when they bind the same members, so nothing is counted twice on
    -- either side.
    have hcovered := hfirst.coveredBy hstart hsecond (fun m => (hsame m).mp)
      hsecond.reachable.covers_store
    have hcovered' := hsecond.coveredBy hstart hfirst (fun m => (hsame m).mpr)
      hfirst.reachable.covers_store
    refine ⟨fun fields => ⟨?_, ?_⟩, ?_, ?_⟩
    · exact hcovered.holdsKey hs.toSound ht.toSound
    · exact hcovered'.holdsKey ht.toSound hs.toSound
    · exact le_antisymm (hcovered'.size_le ht hs.toSound) (hcovered.size_le hs ht.toSound)
    · exact le_antisymm (hcovered'.registry_length_le ht hs.toSound)
        (hcovered.registry_length_le hs ht.toSound)

end

/-! ## Two methods -/

/-- A method on one line that creates a value with one field. -/
def methodCreating (name : String) (column : Nat) (field : String) (value : Nat) : MemberDecl :=
  ⟨⟨1, column⟩, .method, name,
    [.creation (some ⟨1, column + 11⟩) (some ⟨1, column + 11⟩)
      [⟨some ⟨1, column + 17⟩, some ⟨field, some ⟨1, column + 17⟩⟩,
        .literal (some ⟨1, column + 21⟩) ⟨.int, .int value⟩⟩]], []⟩

/-- Two methods that create different types, each bound first in one run, and one of them twice. -/
theorem bindMembers_alike_of_methods :
    let source :=
      "method a \x7b new \x7b x = 1 \x7d; \x7d method b \x7b new \x7b y = 2 \x7d; \x7d".toList
    let a := methodCreating "a" 1 "x" 1
    let b := methodCreating "b" 29 "y" 2
    let p : Program := { members := [a, b] }
    let c := ofProgram p none none
    let first := c.bindMembers [a, b] c.store
    let second := c.bindMembers [b, a, b] c.store
    Program.parse source = .ok p ∧ (∀ m ∈ [a, b], m ∈ p.members) ∧
      (∀ m ∈ [b, a, b], m ∈ p.members) ∧
      ∃ a₁ b₁ b₂ a₂ b₃, first.result = .ok [a₁, b₁] ∧ second.result = .ok [b₂, a₂, b₃] ∧
        a₁.Alike (first.store.SameType second.store) a₂ ∧
        b₁.Alike (first.store.SameType second.store) b₂ ∧
        b₁.Alike (first.store.SameType second.store) b₃ ∧
        second.store.table.size = first.store.table.size := by
  intro source a b p c
  have hparse : Program.parse source = .ok p := rfl
  have hms : ∀ m ∈ [a, b], m ∈ p.members := fun m hm => hm
  have hmembers : ∀ m, m ∈ [a, b] ↔ m ∈ [b, a, b] := by
    intro m
    simp only [List.mem_cons, List.not_mem_nil, or_false]
    grind
  have hns : ∀ m ∈ [b, a, b], m ∈ p.members := fun m hm => (hmembers m).mpr hm
  refine ⟨hparse, hms, hns, ?_⟩
  -- The name keeps unification from running the compilation.
  have hrun := bindMembers_alike hparse none none hms hns
  rw [show ofProgram p none none = c from rfl] at hrun
  obtain ⟨bs, cs, hfirst, hsecond, hlength, hlength', halike, hsame⟩ := hrun
  obtain ⟨a₁, b₁, rfl⟩ := List.length_eq_two.mp hlength
  obtain ⟨b₂, a₂, b₃, rfl⟩ := List.length_eq_three.mp hlength'
  obtain ⟨_, hsize, _⟩ := hsame hmembers
  have ha := halike a a₁ a₂ (by simp) (by simp)
  have hb := halike b b₁ b₂ (by simp) (by simp)
  have hb' := halike b b₁ b₃ (by simp) (by simp)
  exact ⟨a₁, b₁, b₂, a₂, b₃, hfirst, hsecond, ha.1, hb.1, hb'.1, hsize⟩

/-- The places that first asked for the types of the creations in a member. -/
def firstRequests (m : BoundMember) : List Span :=
  m.creations.filterMap fun found =>
    match found.2 with
    | .creation _ _ type _ _ _ _ => some type.span
    | _ => none

/-- Two results are known to be there from what is known of each. -/
theorem exists_two_of_map {α β ε : Type} {f : α → β} {r : Except ε (List α)} {x y : β}
    (h : r.toOption.map (·.map f) = some [x, y]) : ∃ a b, r = .ok [a, b] ∧ f a = x ∧ f b = y := by
  cases r with
  | error e => cases h
  | ok as =>
      have has : as.map f = [x, y] := Option.some.inj h
      obtain ⟨a, rest, rfl, ha, hrest⟩ := List.map_eq_cons_iff.mp has
      obtain ⟨b, rfl, hb⟩ := List.map_eq_singleton_iff.mp hrest
      exact ⟨a, b, rfl, ha, hb⟩

/-- The place that first asked for a type does depend on the order. An anonymous type keeps it, so
it is part of the trees of all its creations: the method that is bound first has the place in
both. -/
theorem firstRequests_depend_on_order :
    let source :=
      "method a \x7b new \x7b x = 1 \x7d; \x7d method b \x7b new \x7b x = 2 \x7d; \x7d".toList
    let a := methodCreating "a" 1 "x" 1
    let b := methodCreating "b" 29 "x" 2
    let p : Program := { members := [a, b] }
    let c := ofProgram p none none
    Program.parse source = .ok p ∧
      ∃ a₁ b₁ a₂ b₂, (c.bindMembers [a, b] c.store).result = .ok [a₁, b₁] ∧
        (c.bindMembers [b, a] c.store).result = .ok [b₂, a₂] ∧
        firstRequests a₁ ≠ firstRequests a₂ := by
  intro source a b p c
  have hfirst : (c.bindMembers [a, b] c.store).result.toOption.map (·.map firstRequests) =
      some [[.ofPosition none (some ⟨1, 12⟩)], [.ofPosition none (some ⟨1, 12⟩)]] := by
    decide +kernel
  have hsecond : (c.bindMembers [b, a] c.store).result.toOption.map (·.map firstRequests) =
      some [[.ofPosition none (some ⟨1, 40⟩)], [.ofPosition none (some ⟨1, 40⟩)]] := by
    decide +kernel
  obtain ⟨a₁, b₁, hab, ha₁, _⟩ := exists_two_of_map hfirst
  obtain ⟨b₂, a₂, hba, _, ha₂⟩ := exists_two_of_map hsecond
  refine ⟨rfl, a₁, b₁, a₂, b₂, hab, hba, ?_⟩
  rw [ha₁, ha₂]
  decide

end AnonymousObjects.Compilation
