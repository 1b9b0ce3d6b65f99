import AnonymousObjects.Proofs.Compilation.DeclarationReports
import AnonymousObjects.Proofs.Compilation.Declarations

/-!
# What references to types denote

A reference denotes the type of its name, with a pointer for each star, or else the error type of
the name. `Denotes` says so of a table, and `resolve_resolves` shows that `Declared.resolve` gives
such a type: it adds pointers and error types only, and those change neither the names of types nor
what other references denote.
-/

namespace AnonymousObjects

open Syntax (ParamDecl TypeRef)

namespace TypeTable

variable {t u : TypeTable} {id target : TypeId} {r : TypeRef} {name : String}

/-- The type with this id is the target itself or a pointer to it, `depth` pointers away. -/
inductive PointerTo (t : TypeTable) (target : TypeId) : Nat → TypeId → Prop where
  | self : PointerTo t target 0 target
  | pointer (depth inner id name) : PointerTo t target depth inner →
      t.get? id = some ⟨.pointer inner, name⟩ → PointerTo t target (depth + 1) id

/-- A reference denotes the type that its name has in the table, with a pointer for each star. A
name without a type denotes the error type of that name. -/
inductive Denotes (t : TypeTable) (r : TypeRef) (id : TypeId) : Prop where
  | named (named : TypeId) : t.lookup r.name = some named → t.PointerTo named r.depth id →
      Denotes t r id
  | unknown : t.lookup r.name = none → t.get? id = some ⟨.error, r.name⟩ → Denotes t r id

/-- The names of types in the table are just these. -/
def Knows (t : TypeTable) (names : List String) : Prop :=
  ∀ n, (t.lookup n).isSome = true ↔ n ∈ names

/-- The larger table has more types, none of them with a name in source text. -/
def GrowsUnnamed (t u : TypeTable) : Prop :=
  ∃ more, u.defs = t.defs ++ more ∧ ∀ d ∈ more, d.shape.isNamed = false

/-- Apart from the fields of types, more types are all that there is. -/
theorem GrowsUnnamed.grows (h : t.GrowsUnnamed u) : t.Grows { u with schemas := t.schemas } :=
  ⟨h, rfl⟩

/-- A table grows by nothing. -/
theorem GrowsUnnamed.refl (t : TypeTable) : t.GrowsUnnamed t :=
  (Grows.refl t).defs

/-- What has grown twice has grown. -/
theorem GrowsUnnamed.trans {v : TypeTable} (h : t.GrowsUnnamed u) (h' : u.GrowsUnnamed v) :
    t.GrowsUnnamed v :=
  (h.grows.trans (v := { v with schemas := t.schemas }) ⟨h', rfl⟩).defs

/-- Names keep their types. -/
theorem GrowsUnnamed.lookup (h : t.GrowsUnnamed u) (name : String) :
    u.lookup name = t.lookup name :=
  h.grows.lookup name

/-- Types keep their definitions. -/
theorem GrowsUnnamed.get? (h : t.GrowsUnnamed u) {d : TypeDef} (hd : t.get? id = some d) :
    u.get? id = some d :=
  h.grows.get? hd

/-- Pointers to a type stay so in a table with more unnamed types. -/
theorem PointerTo.mono {depth : Nat} (h : t.PointerTo target depth id) (hg : t.GrowsUnnamed u) :
    u.PointerTo target depth id := by
  induction h with
  | self => exact .self
  | pointer depth inner id name _ hget ih => exact .pointer depth inner id name ih (hg.get? hget)

/-- References go on to denote what they denote. -/
theorem Denotes.mono (h : t.Denotes r id) (hg : t.GrowsUnnamed u) : u.Denotes r id := by
  cases h with
  | named target hlookup hpointer =>
      exact .named target (by rw [hg.lookup, hlookup]) (hpointer.mono hg)
  | unknown hlookup hget => exact .unknown (by rw [hg.lookup, hlookup]) (hg.get? hget)

/-- Unnamed types add no known names. -/
theorem Knows.mono {names : List String} (h : t.Knows names) (hg : t.GrowsUnnamed u) :
    u.Knows names := by
  intro n
  rw [hg.lookup, h n]

/-- A pointer to a pointer is one pointer farther away. -/
theorem PointerTo.cons {inner : TypeId} {depth : Nat} (h : t.PointerTo inner depth id)
    (hinner : t.get? inner = some ⟨.pointer target, name⟩) :
    t.PointerTo target (depth + 1) id := by
  induction h with
  | self => exact .pointer 0 target inner name .self hinner
  | pointer depth mid id name' _ hget ih => exact .pointer (depth + 1) mid id name' ih hget

/-- A type that is found or added has the property looked for, if a new one has it, and only types
without a name in source text are added in this way. -/
theorem findOrAdd_unnamed (t : TypeTable) {p : TypeDef → Bool} {d : TypeDef} (hp : p d = true)
    (hunnamed : d.shape.isNamed = false) :
    t.Grows (t.findOrAdd p d).2 ∧
      ∃ e, (t.findOrAdd p d).2.get? (t.findOrAdd p d).1 = some e ∧ p e = true := by
  rcases t.findOrAdd_cases p d with ⟨id, e, he, hpe, hfound⟩ | ⟨_, hadded⟩
  · rw [hfound]
    exact ⟨.refl t, e, he, hpe⟩
  · rw [hadded]
    exact ⟨.add t hunnamed, d, get?_add t d, hp⟩

/-- The type of pointers to a type of the table. -/
theorem pointerTo_spec (hid : t.Has id) :
    ∃ made, t.pointerTo id = .ok made ∧ t.Grows made.2 ∧
      ∃ name, made.2.get? made.1 = some ⟨.pointer id, name⟩ := by
  obtain ⟨d, hd⟩ := hid
  have hget : t.get id = .ok d := get_eq_ok_iff.mpr hd
  obtain ⟨hgrows, ⟨shape, shown⟩, he, hpe⟩ :=
    t.findOrAdd_unnamed (p := (·.shape = .pointer id)) (d := ⟨.pointer id, d.name ++ "*"⟩)
      (by simp) rfl
  obtain rfl : shape = .pointer id := by simpa using hpe
  exact ⟨_, by simp [TypeTable.pointerTo, hget, bind, Except.bind, pure, Except.pure], hgrows,
    shown, he⟩

/-- The error type of a name. -/
theorem ensureError_spec (t : TypeTable) (name : String) :
    t.Grows (t.ensureError name).2 ∧
      (t.ensureError name).2.get? (t.ensureError name).1 = some ⟨.error, name⟩ := by
  obtain ⟨hgrows, ⟨shape, shown⟩, he, hpe⟩ :=
    t.findOrAdd_unnamed (p := fun d => d.shape.isError && d.name == name) (d := ⟨.error, name⟩)
      (by simp [TypeShape.isError]) rfl
  obtain ⟨herror, rfl⟩ : shape.isError = true ∧ shown = name := by simpa using hpe
  cases shape <;> cases herror
  exact ⟨hgrows, he⟩

end TypeTable

namespace Declared

variable {d d' d'' : Declared} {ds ds' : List Diagnostic} {names : List String}

/-- Declarations that others have been followed by, which reported `ds` and added no name of a
type. -/
structure Follows (d d' : Declared) (ds : List Diagnostic) : Prop where
  table : d.table.GrowsUnnamed d'.table
  problems : d'.problems = d.problems ++ ds

/-- What references lead to: types of the table and reports. -/
structure Resolves (d d' : Declared) (ds : List Diagnostic) : Prop extends Follows d d' ds where
  schemas : d'.table.schemas = d.table.schemas
  symbols : d'.symbols = d.symbols

/-- Declarations may be followed twice. -/
theorem Follows.trans (h : d.Follows d' ds) (h' : d'.Follows d'' ds') :
    d.Follows d'' (ds ++ ds') :=
  ⟨h.table.trans h'.table, by rw [h'.problems, h.problems, List.append_assoc]⟩

/-- No references, nothing resolved. -/
theorem Resolves.refl (d : Declared) : d.Resolves d [] :=
  ⟨⟨.refl _, by simp⟩, rfl, rfl⟩

/-- References may be resolved one after another. -/
theorem Resolves.trans (h : d.Resolves d' ds) (h' : d'.Resolves d'' ds') :
    d.Resolves d'' (ds ++ ds') :=
  ⟨h.toFollows.trans h'.toFollows, h'.schemas.trans h.schemas, h'.symbols.trans h.symbols⟩

/-- A report alone. -/
theorem Resolves.report (d : Declared) (file : Option String) (p : Problem) (position : Position) :
    d.Resolves (d.report file p position) [complaint file p position] :=
  ⟨⟨.refl _, rfl⟩, rfl, rfl⟩

/-- Pointers are added one by one, from the inside out. -/
theorem addPointers_spec {t : TypeTable} {id : TypeId} (hid : t.Has id) (depth : Nat) :
    t.Grows (addPointers t id depth).2 ∧
      (addPointers t id depth).2.PointerTo id depth (addPointers t id depth).1 := by
  induction depth generalizing t id with
  | zero => exact ⟨.refl t, .self⟩
  | succ depth ih =>
    obtain ⟨⟨target, u⟩, hmade, hgrows, name, hget⟩ := TypeTable.pointerTo_spec hid
    obtain ⟨hgrows', hpointer⟩ := ih (t := u) ⟨_, hget⟩
    rw [addPointers, hmade]
    exact ⟨hgrows.trans hgrows', hpointer.cons (hgrows'.get? hget)⟩

/-- A reference is resolved to what it denotes. Its name is reported if no type has it. -/
theorem resolve_resolves (hnames : d.table.Knows names) (file : Option String) (r : TypeRef) :
    d.Resolves (d.resolve file r).2 (unknownReports file names r) ∧
      (d.resolve file r).2.table.Denotes r (d.resolve file r).1 := by
  unfold resolve
  cases hlookup : d.table.lookup r.name with
  | some id =>
      have hmem : r.name ∈ names := (hnames r.name).mp (by simp [hlookup])
      obtain ⟨e, he, _⟩ := TypeTable.lookup_spec hlookup
      obtain ⟨hgrows, hpointer⟩ := addPointers_spec ⟨e, he⟩ r.depth
      refine ⟨⟨⟨hgrows.defs, ?_⟩, hgrows.schemas, rfl⟩, .named id ?_ hpointer⟩
      · simp [unknownReports, hmem]
      · exact (hgrows.lookup r.name).trans hlookup
  | none =>
      have hmem : r.name ∉ names := fun h => by simp [hlookup, ← hnames r.name] at h
      obtain ⟨hgrows, hget⟩ := d.table.ensureError_spec r.name
      refine ⟨⟨⟨hgrows.defs, ?_⟩, hgrows.schemas, rfl⟩, .unknown ?_ hget⟩
      · simp [unknownReports, hmem, Declared.report, complaint]
      · exact (hgrows.lookup r.name).trans hlookup

/-- The types of parameters are resolved in order. -/
theorem resolveParams_resolves (hnames : d.table.Knows names) (file : Option String)
    (ps : List ParamDecl) :
    d.Resolves (resolveParams file d ps).2
        ((ps.map (·.type)).flatMap (unknownReports file names)) ∧
      List.Forall₂ (fun p id => (resolveParams file d ps).2.table.Denotes p.type id) ps
        (resolveParams file d ps).1 := by
  induction ps generalizing d with
  | nil => exact ⟨.refl d, .nil⟩
  | cons p ps ih =>
    obtain ⟨hone, htype⟩ := resolve_resolves hnames file p.type
    obtain ⟨hrest, htypes⟩ := ih (hnames.mono hone.table)
    rw [resolveParams]
    exact ⟨hone.trans hrest, .cons (htype.mono hrest.table) htypes⟩

end Declared

end AnonymousObjects
