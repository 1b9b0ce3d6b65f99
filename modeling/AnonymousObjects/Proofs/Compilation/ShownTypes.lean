import AnonymousObjects.Proofs.Compilation.Order
import AnonymousObjects.Proofs.Compilation.PlacedRuns
import AnonymousObjects.Proofs.Compilation.Resolution
import AnonymousObjects.Proofs.Syntax.Printing.Numbers
import AnonymousObjects.Proofs.Types.Displays
import AnonymousObjects.Text.NameTable

/-!
# What is shown for the types of a program

The named types of a program from source text have words as their names, and the fields of its
creations are named by identifiers or by a dollar sign and their place. So what is shown for a type
says which type it is, in every store that binding leads to (`bindMembers_display_injective`).
-/

namespace AnonymousObjects

open Syntax (Expr Initializer MemberDecl Name Program isWord)

/-! ## Names in source text -/

namespace Syntax

/-- The types that a program from source text declares have words as their names. -/
theorem Program.isWord_typeName [Text.CharacterNames] {source : List Char} {p : Program}
    (hp : Program.parse source = .ok p) : ∀ t ∈ p.types, isWord t.name.toList = true := by
  obtain ⟨d, hd, rfl⟩ := Program.exists_derivation hp
  have hnames := Tokens.ofText_wellNamed .program source
  intro t ht
  obtain ⟨item, hitem, htype⟩ := List.mem_filterMap.mp ht
  cases item with
  | type item =>
    obtain rfl := Option.some.inj htype
    have hmem : item.name.val ∈ d.tokens :=
      List.mem_flatMap.mpr ⟨_, hitem, List.mem_append_right _ List.mem_cons_self⟩
    exact hnames item.name.val (hd ▸ hmem) item.name.property
  | global | function | member => cases htype

end Syntax

/-- The names of builtin types are words. -/
theorem isWord_builtin (b : Builtin) : isWord b.name.toList = true := by
  cases b <;> decide

/-! ## Names of fields -/

/-- The name that stands for a place can stand in the text of a type. -/
theorem isPlain_placeholder (i : Nat) : TypeStructure.IsPlain ("$" ++ toString i) := by
  intro c hc
  rw [String.toList_append, List.mem_append] at hc
  rcases hc with hc | hc
  · obtain rfl : c = '$' := by simpa using hc
    decide
  · have hdigit := Text.Decimal.isDigit_of_mem_toString hc
    refine ⟨?_, ?_, ?_, ?_⟩ <;> rintro rfl <;> exact absurd hdigit (by decide)

/-- An identifier can stand in the text of a type. -/
theorem isPlain_of_isIdentifier {name : String} (h : Text.isIdentifier name.toList = true) :
    TypeStructure.IsPlain name := by
  have hclass : ∀ c ∈ name.toList,
      Text.startsIdentifier c = true ∨ Text.inIdentifier c = true := by
    cases hname : name.toList with
    | nil => simp
    | cons c cs =>
      rw [hname] at h
      obtain ⟨hstart, hrest⟩ := Bool.and_eq_true_iff.mp h
      exact List.forall_mem_cons.mpr
        ⟨.inl hstart, fun d hd => .inr (List.all_eq_true.mp hrest d hd)⟩
  intro c hc
  have hin := hclass c hc
  refine ⟨?_, ?_, ?_, ?_⟩ <;> rintro rfl <;> exact absurd hin (by decide)

/-- A name that a field keeps can stand in the text of a type. -/
theorem isPlain_of_nameAfter {before : List String} {init : Initializer Expr} {name : String}
    (h : nameAfter before init = some name) : TypeStructure.IsPlain name := by
  obtain ⟨n, hname, hkept⟩ := Option.bind_eq_some_iff.mp h
  split at hkept
  · cases hkept
  · obtain rfl := Option.some.inj hkept
    exact isPlain_of_isIdentifier (Option.filter_eq_some_iff.mp hname).2

/-- The name of a resolved field can stand in the text of a type. -/
theorem FieldOf.isPlain {index : Nat} {before : List String} {init : Initializer Expr}
    {field : ResolvedField} (h : FieldOf index before init field) :
    TypeStructure.IsPlain field.field.name := by
  rw [h.shown, h.name]
  cases hname : nameAfter before init with
  | none => exact isPlain_placeholder index
  | some name => exact isPlain_of_nameAfter hname

/-- The names of the fields of a creation can stand in the text of a type. -/
theorem CreatedWithin.isPlain {ctx : Context} {s s' : Store} {b : BoundExpr}
    (h : CreatedWithin ctx s s' b) : ∀ f ∈ b.fields, TypeStructure.IsPlain f.name := by
  cases h with
  | creation _ _ _ _ _ _ _ _ _ _ _ hfields _ _ =>
    intro f hf
    obtain ⟨x, hx, rfl⟩ := List.mem_map.mp hf
    obtain ⟨k, hk⟩ := List.mem_iff_getElem?.mp hx
    obtain ⟨init, _, hfield⟩ := hfields.fieldOf (fun _ => Iff.rfl) hk
    exact hfield.isPlain

/-! ## Runs -/

/-- Without errors in a table no type is built from one. -/
theorem TypeTable.NoErrors.not_builtFromError {t : TypeTable} (h : t.NoErrors) {id : TypeId} :
    ¬ t.BuiltFromError id := by
  intro herror
  induction herror with
  | error id d hd hshape =>
    have hplain := h id d hd
    rw [hshape] at hplain
    cases hplain
  | part _ _ _ _ _ _ ih => exact ih

namespace Compilation

variable {source : List Char} {p : Program} {nullable : Option Bool} {file : Option String}

/-- The names in the store that a run leads to can stand in the text of a type. -/
theorem BindsPlaced.legible [Text.CharacterNames] (hp : Program.parse source = .ok p)
    {xs : List (Option ContainingMember × Expr)} {s : Store} {bs : List BoundExpr}
    (h : BindsPlaced (ofProgram p nullable file) xs (ofProgram p nullable file).store bs s) :
    s.Legible := by
  have hstart : (ofProgram p nullable file).Reachable (ofProgram p nullable file).store := .refl
  have hgrows := (hstart.trans h.reaches).sound.grows
  refine ⟨fun id d hd hnamed => ?_, fun a ha field hfield => ?_⟩
  · have hknown := (represents p nullable file).table.names d.name
    -- Runs add no named types: the name is a builtin one or a declared one.
    have hbase := hgrows.get?_of_named hd hnamed
    obtain ⟨i, _, hi⟩ := TypeTable.get?_eq_some_iff.mp hbase
    have hname := hknown.mp
      (TypeTable.isSome_lookup_iff.mpr ⟨d, List.mem_of_getElem? hi, hnamed, rfl⟩)
    rcases List.mem_append.mp hname with hname | hname
    · obtain ⟨b, _, hb⟩ := List.mem_map.mp hname
      exact hb ▸ isWord_builtin b
    · obtain ⟨t, ht, hname⟩ := List.mem_map.mp hname
      exact hname ▸ Program.isWord_typeName hp t ht
  · obtain ⟨node, hnode, htype⟩ := (h.accounts a ha).resolve_left List.not_mem_nil
    obtain ⟨x, _, _, hcreated⟩ := h.created hstart node hnode
    -- The key of an anonymous type has the names of the fields of a creation.
    have hplain := hcreated.isPlain
    obtain ⟨_, _, type, fields, _, _, _, rfl, hfits⟩ :=
      hcreated.fits (ofProgram_fits p nullable file x.1) hstart.sound
    obtain rfl := Option.some.inj htype
    rw [hfits.key, AnonymousKey.ofFields] at hfield
    obtain ⟨f, hf, rfl⟩ := List.mem_map.mp hfield
    exact hplain f hf

/-- Types that are shown alike are the same type. Take the store after any run over members of a
program from source text, and two types in it with one text. If neither of them is an error type or
built from one, they have the same id. -/
theorem bindMembers_display_injective [Text.CharacterNames] (hp : Program.parse source = .ok p)
    (nullable : Option Bool)
    (file : Option String) (ms : List MemberDecl) (hms : ∀ m ∈ ms, m ∈ p.members) :
    let c := ofProgram p nullable file
    let t := (c.bindMembers ms c.store).store.table
    ∀ (id id' : TypeId) (shown : String), t.display id = .ok shown → t.display id' = .ok shown →
      ¬ t.BuiltFromError id → ¬ t.BuiltFromError id' → id = id' := by
  intro c t id id' shown h h' hid hid'
  have hstart : c.Reachable c.store := .refl
  have hreadable := Program.parse_readable hp
  obtain ⟨bound, s, hbound⟩ := bindsMembers_total ms (fun m hm => hreadable m (hms m hm)) hstart
  obtain ⟨-, hstore, -⟩ := (yields_of_bindsMembers hbound).eq
  have htable : t = s.table := congrArg Store.table hstore
  rw [htable] at h h' hid hid'
  exact (hstart.trans hbound.reaches).regular.eq_of_display (hbound.placed.legible hp) h h' hid hid'

/-- Two members create a type with a field of another anonymous type. There is one type that is
shown as this type is. -/
theorem bindMembers_display_of_nested :
    let source := ("method a \x7b new \x7b x = 1, y = new \x7b z = true \x7d \x7d; \x7d " ++
      "method b \x7b new \x7b x = 2, y = new \x7b z = false \x7d \x7d; \x7d").toList
    ∃ p, Program.parse source = .ok p ∧
      let c := ofProgram p none none
      let t := (c.bindMembers p.members c.store).store.table
      ∀ id, t.display id = .ok "<anonymous type: int x, <anonymous type: bool z> y>" ↔
        id = .ofIndex 6 := by
  intro source
  obtain ⟨p, hp, hshown, hdefs⟩ : ∃ p, Program.parse source = .ok p ∧
      let c := ofProgram p none none
      let t := (c.bindMembers p.members c.store).store.table
      t.display (.ofIndex 6) = .ok "<anonymous type: int x, <anonymous type: bool z> y>" ∧
        ∀ d ∈ t.defs, d.shape.isError = false :=
    ⟨_, rfl, by decide +kernel⟩
  have hnone : TypeTable.NoErrors _ := fun id d hd => by
    obtain ⟨i, _, hi⟩ := TypeTable.get?_eq_some_iff.mp hd
    exact hdefs d (List.mem_of_getElem? hi)
  refine ⟨p, hp, fun id => ⟨fun h => ?_, fun h => h ▸ hshown⟩⟩
  exact bindMembers_display_injective hp none none p.members (fun _ hm => hm) id _ _ h hshown
    hnone.not_builtFromError hnone.not_builtFromError

end Compilation

end AnonymousObjects
