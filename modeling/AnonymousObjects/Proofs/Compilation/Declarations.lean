import AnonymousObjects.Compilation
import AnonymousObjects.Proofs.Types.Stores

/-!
# What declarations leave behind

The declarations of a program make a table of declared types and symbols whose types are in it.
`Declared.Valid` is what each declaration keeps, `Declared.ofProgram_valid` that it holds at the
end. Among it is that error types are there only after a report.
-/

namespace AnonymousObjects

open Syntax (FieldDecl FunctionDecl GlobalDecl ParamDecl Program TypeDecl TypeRef)

namespace TypeTable

variable {t u : TypeTable} {d : TypeDef} {id : TypeId} {name : String}

/-! ## Declared types -/

/-- A name keeps its type when a type is added. -/
theorem lookup_add_of_some (h : t.lookup name = some id) (d : TypeDef) :
    (t.add d).2.lookup name = some id := by
  simp only [lookup, find?, Option.map_eq_some_iff] at h ⊢
  obtain ⟨i, hi, rfl⟩ := h
  exact ⟨i, by simp [add, List.findIdx?_append, hi], rfl⟩

/-- The builtin types stay when a type is added. -/
theorem HasBuiltins.add (h : t.HasBuiltins) (d : TypeDef) : (t.add d).2.HasBuiltins := by
  intro b
  obtain ⟨id, hlookup, hget⟩ := h b
  exact ⟨id, lookup_add_of_some hlookup d, get?_add_of_some hget⟩

/-- A declared type that is built from types of the table may be added. -/
theorem Base.add (h : t.Base) (hdeclared : d.shape.isDeclared = true)
    (hparts : ∀ id ∈ d.shape.arguments, t.Has id) : (t.add d).2.Base where
  builtins := h.builtins.add d
  ordered := h.ordered.add hparts
  declared id e he := by
    rcases get?_add_cases he with he | ⟨_, rfl⟩
    · exact h.declared id e he
    · exact hdeclared
  schemas p hp := by
    obtain ⟨hid, hfields⟩ := h.schemas p hp
    exact ⟨hid.mono (t.defs_add d), fun f hf => (hfields f hf).mono (t.defs_add d)⟩

/-- A type may be given fields of types of the table. -/
theorem Base.defineFields (h : t.Base) (hid : t.Has id) {fields : List FieldSchema}
    (hfields : ∀ f ∈ fields, t.Has f.type) : (t.defineFields id fields).Base where
  builtins := h.builtins
  ordered := h.ordered
  declared := h.declared
  schemas p hp := by
    rcases List.mem_cons.mp hp with rfl | hp
    · exact ⟨hid, hfields⟩
    · exact h.schemas p hp

/-- The table of the builtin types. -/
theorem base_withBuiltins : (withBuiltins {}).Base where
  builtins b := by cases b <;> exact ⟨_, rfl, rfl⟩
  ordered i d hd id hid := by
    have hplain : ∀ d ∈ (withBuiltins {}).defs, d.shape.arguments = [] := by decide
    simp [hplain d (List.mem_of_getElem? hd)] at hid
  declared id d hd := by
    have hdeclared : ∀ d ∈ (withBuiltins {}).defs, d.shape.isDeclared = true := by decide
    obtain ⟨i, _, hi⟩ := get?_eq_some_iff.mp hd
    exact hdeclared d (List.mem_of_getElem? hi)
  schemas p hp := by
    have hnone : (withBuiltins {}).schemas = [] := by decide
    simp [hnone] at hp

/-- No type of the table stands for a mistake. -/
def NoErrors (t : TypeTable) : Prop :=
  ∀ id d, t.get? id = some d → d.shape.isError = false

/-- A type that is no mistake may be added to a table without mistakes. -/
theorem NoErrors.add (h : t.NoErrors) (hd : d.shape.isError = false) : (t.add d).2.NoErrors := by
  intro id e he
  rcases get?_add_cases he with he | ⟨_, rfl⟩
  · exact h id e he
  · exact hd

/-- What finding a declared type, or adding it, keeps. -/
structure Declares (t : TypeTable) (made : TypeId × TypeTable) : Prop where
  base : made.2.Base
  initial : t.defs <+: made.2.defs
  has : made.2.Has made.1
  noErrors : t.NoErrors → made.2.NoErrors

/-- A type that is there is declared by changing nothing. -/
theorem Base.declares_self (h : t.Base) (hid : t.Has id) : t.Declares (id, t) :=
  ⟨h, List.prefix_rfl, hid, fun h => h⟩

/-- A declared type made of types that exist may be added. -/
theorem Base.declares_add (h : t.Base) (hdeclared : d.shape.isDeclared = true)
    (hparts : ∀ id ∈ d.shape.arguments, t.Has id) (hd : d.shape.isError = false) :
    t.Declares (t.add d) :=
  ⟨h.add hdeclared hparts, t.defs_add d, ⟨d, get?_add t d⟩, fun h => h.add hd⟩

/-- The type of pointers to a type of the table. -/
theorem Base.pointerTo (h : t.Base) (hid : t.Has id) :
    ∃ made, t.pointerTo id = .ok made ∧ t.Declares made := by
  obtain ⟨d, hd⟩ := hid
  have hget : t.get id = .ok d := get_eq_ok_iff.mpr hd
  refine ⟨t.findOrAdd (·.shape = .pointer id) ⟨.pointer id, d.name ++ "*"⟩,
    by simp [TypeTable.pointerTo, hget, bind, Except.bind, pure, Except.pure], ?_⟩
  rcases t.findOrAdd_cases (·.shape = .pointer id) ⟨.pointer id, d.name ++ "*"⟩ with
    ⟨found, e, he, _, hfound⟩ | ⟨_, hadded⟩
  · rw [hfound]
    exact h.declares_self ⟨e, he⟩
  · rw [hadded]
    exact h.declares_add rfl (by simpa [TypeShape.arguments] using ⟨d, hd⟩) rfl

end TypeTable

/-! ## Symbols -/

/-- The types of symbols are in the table. -/
structure SymbolTable.Typed (symbols : SymbolTable) (t : TypeTable) : Prop where
  globals : ∀ g ∈ symbols.globals, t.Has g.type
  functions : ∀ f ∈ symbols.functions, (∀ id ∈ f.params, t.Has id) ∧ t.Has f.result

namespace SymbolTable.Typed

variable {symbols : SymbolTable} {t u : TypeTable} {name : String}

/-- Symbols keep their types in a longer table. -/
theorem mono (h : symbols.Typed t) (hinitial : t.defs <+: u.defs) : symbols.Typed u where
  globals g hg := (h.globals g hg).mono hinitial
  functions f hf :=
    ⟨fun id hid => ((h.functions f hf).1 id hid).mono hinitial,
      ((h.functions f hf).2).mono hinitial⟩

/-- A global of a type that exists may be added. -/
theorem addGlobal (h : symbols.Typed t) {g : GlobalSymbol} (hg : t.Has g.type) :
    SymbolTable.Typed { symbols with globals := symbols.globals ++ [g] } t where
  globals g' hg' := by
    rcases List.mem_append.mp hg' with hg' | hg'
    · exact h.globals g' hg'
    · rwa [List.mem_singleton.mp hg']
  functions := h.functions

/-- A function with parameters and a result of types that exist may be added. -/
theorem addFunction (h : symbols.Typed t) {f : FunctionSymbol} (hparams : ∀ id ∈ f.params, t.Has id)
    (hresult : t.Has f.result) :
    SymbolTable.Typed { symbols with functions := symbols.functions ++ [f] } t where
  globals := h.globals
  functions f' hf' := by
    rcases List.mem_append.mp hf' with hf' | hf'
    · exact h.functions f' hf'
    · rw [List.mem_singleton.mp hf']
      exact ⟨hparams, hresult⟩

/-- The type of a global is in the table. -/
theorem has_global (h : symbols.Typed t) {g : GlobalSymbol} (hg : symbols.global? name = some g) :
    t.Has g.type :=
  h.globals g (List.mem_of_find?_eq_some hg)

/-- The type of what a function gives is in the table. -/
theorem has_result (h : symbols.Typed t) {f : FunctionSymbol}
    (hf : symbols.function? name = some f) : t.Has f.result :=
  (h.functions f (List.mem_of_find?_eq_some hf)).2

end SymbolTable.Typed

/-! ## Declarations -/

namespace Declared

/-- What every declaration keeps. -/
structure Valid (d : Declared) : Prop where
  base : d.table.Base
  typed : d.symbols.Typed d.table
  noErrors : d.problems = [] → d.table.NoErrors

/-- Valid declarations that later ones have been added to. -/
structure Grown (d d' : Declared) : Prop where
  valid : d'.Valid
  initial : d.table.defs <+: d'.table.defs

variable {d d' d'' : Declared}

/-- Valid declarations grow by nothing. -/
theorem Valid.grown (h : d.Valid) : d.Grown d :=
  ⟨h, List.prefix_rfl⟩

/-- What has grown twice has grown. -/
theorem Grown.trans (h : d.Grown d') (h' : d'.Grown d'') : d.Grown d'' :=
  ⟨h'.valid, h.initial.trans h'.initial⟩

/-- A report may be added to valid declarations. -/
theorem Valid.report (h : d.Valid) (file : Option String) (p : Problem) (position : Position) :
    d.Grown (d.report file p position) :=
  ⟨⟨h.base, h.typed, by simp [Declared.report]⟩, List.prefix_rfl⟩

/-- A declared type may be added to valid declarations. -/
theorem Valid.declares (h : d.Valid) {made : TypeId × TypeTable} (hmade : d.table.Declares made) :
    d.Grown { d with table := made.2 } :=
  ⟨⟨hmade.base, h.typed.mono hmade.initial, fun hclean => hmade.noErrors (h.noErrors hclean)⟩,
    hmade.initial⟩

/-- The symbols of valid declarations may be replaced by others with types of the table. -/
theorem Valid.withSymbols (h : d.Valid) {symbols : SymbolTable} (hsymbols : symbols.Typed d.table) :
    d.Grown { d with symbols := symbols } :=
  ⟨⟨h.base, hsymbols, h.noErrors⟩, List.prefix_rfl⟩

/-- A declared type is new. -/
theorem declare_eq_ok {t : TypeTable} {shape : TypeShape} {name : String}
    {made : TypeId × TypeTable} (h : t.declare shape name = .ok made) :
    made = t.add ⟨shape, name⟩ := by
  unfold TypeTable.declare at h
  split at h
  · cases h
  · exact (Except.ok.inj h).symm

/-- Declaring types keeps declarations valid, and every type declared is in the table. -/
theorem addTypes_grown (h : d.Valid) (file : Option String) (ts : List TypeDecl) :
    d.Grown (addTypes file d ts).1 ∧
      ∀ p ∈ (addTypes file d ts).2, (addTypes file d ts).1.table.Has p.2 := by
  induction ts generalizing d with
  | nil => exact ⟨h.grown, by simp [addTypes]⟩
  | cons t ts ih =>
    -- The three kinds of types are declared alike, and differ in their shape only.
    have hdeclares (shape : TypeShape) (hshape : shape.arguments = [])
        (hdeclared : shape.isDeclared = true) (herror : shape.isError = false) :
        d.table.Declares (d.table.add ⟨shape, t.name⟩) :=
      h.base.declares_add hdeclared (by simp [hshape]) herror
    rw [addTypes]
    split
    · have hreport := h.report file (.duplicateDeclaration t.name) t.position
      obtain ⟨hgrown, hids⟩ := ih hreport.valid
      exact ⟨hreport.trans hgrown, hids⟩
    · next id table hok =>
      have hmade : d.table.Declares (id, table) := by
        split at hok
        · rw [declare_eq_ok hok]
          exact hdeclares .reference rfl rfl rfl
        · rw [declare_eq_ok hok]
          exact hdeclares .value rfl rfl rfl
        · rw [declare_eq_ok hok]
          exact hdeclares .restricted rfl rfl rfl
      have hone := h.declares hmade
      obtain ⟨hgrown, hids⟩ := ih hone.valid
      refine ⟨hone.trans hgrown, ?_⟩
      intro p hp
      rcases List.mem_cons.mp hp with rfl | hp
      · exact hmade.has.mono hgrown.initial
      · exact hids p hp

/-- The pointers of a reference are declared on the type that it names. -/
theorem addPointers_declares {t : TypeTable} {id : TypeId} (h : t.Base) (hid : t.Has id)
    (depth : Nat) : t.Declares (addPointers t id depth) := by
  induction depth generalizing t id with
  | zero => exact h.declares_self hid
  | succ depth ih =>
    obtain ⟨made, hmade, hdeclares⟩ := h.pointerTo hid
    have hrest := ih hdeclares.base hdeclares.has
    rw [addPointers, hmade]
    exact ⟨hrest.base, hdeclares.initial.trans hrest.initial, hrest.has,
      fun h => hrest.noErrors (hdeclares.noErrors h)⟩

/-- Resolving a reference keeps declarations valid and gives a type of the table. -/
theorem resolve_grown (h : d.Valid) (file : Option String) (r : TypeRef) :
    d.Grown (d.resolve file r).2 ∧ (d.resolve file r).2.table.Has (d.resolve file r).1 := by
  unfold resolve
  split
  · next id hid =>
    obtain ⟨e, he, _⟩ := TypeTable.lookup_spec hid
    have hdeclares := addPointers_declares h.base ⟨e, he⟩ r.depth
    exact ⟨h.declares hdeclares, hdeclares.has⟩
  · -- The report makes up for the error type.
    dsimp only
    rcases d.table.findOrAdd_cases (fun d => d.shape.isError && d.name == r.name)
      ⟨.error, r.name⟩ with ⟨id, e, he, _, hfound⟩ | ⟨_, hadded⟩
    · rw [TypeTable.ensureError, hfound]
      exact ⟨h.report _ _ _, ⟨e, he⟩⟩
    · rw [TypeTable.ensureError, hadded]
      have hbase : (d.table.add ⟨.error, r.name⟩).2.Base :=
        h.base.add rfl (by simp [TypeShape.arguments])
      refine ⟨⟨⟨hbase, h.typed.mono (TypeTable.defs_add _ _), ?_⟩, TypeTable.defs_add _ _⟩, ?_⟩
      · simp [Declared.report]
      · exact ⟨_, TypeTable.get?_add _ _⟩

/-- Declaring fields keeps declarations valid, and their types are in the table. -/
theorem addFields_grown (h : d.Valid) (file : Option String) (owner : String)
    {fields : List FieldSchema} (hfields : ∀ f ∈ fields, d.table.Has f.type) (fs : List FieldDecl) :
    d.Grown (addFields file owner d fields fs).1 ∧
      ∀ f ∈ (addFields file owner d fields fs).2,
        (addFields file owner d fields fs).1.table.Has f.type := by
  induction fs generalizing d fields with
  | nil => exact ⟨h.grown, hfields⟩
  | cons f fs ih =>
    rw [addFields]
    split
    · have hreport := h.report file (.duplicateDeclaration (owner ++ "." ++ f.name))
        f.position
      obtain ⟨hgrown, hall⟩ := ih hreport.valid hfields
      exact ⟨hreport.trans hgrown, hall⟩
    · obtain ⟨hone, htype⟩ := resolve_grown h file f.type
      have hmore : ∀ g ∈ fields ++ [⟨f.name, (d.resolve file f.type).1, f.isStatic⟩],
          (d.resolve file f.type).2.table.Has g.type := by
        intro g hg
        rcases List.mem_append.mp hg with hg | hg
        · exact (hfields g hg).mono hone.initial
        · rw [List.mem_singleton.mp hg]
          exact htype
      obtain ⟨hgrown, hall⟩ := ih hone.valid hmore
      exact ⟨hone.trans hgrown, hall⟩

/-- Declaring the fields of types keeps declarations valid. -/
theorem addSchemas_grown (h : d.Valid) (file : Option String) {types : List (TypeDecl × TypeId)}
    (htypes : ∀ p ∈ types, d.table.Has p.2) : d.Grown (addSchemas file d types) := by
  induction types generalizing d with
  | nil => exact h.grown
  | cons p rest ih =>
    obtain ⟨t, id⟩ := p
    obtain ⟨hone, hfields⟩ := addFields_grown h file t.name (List.forall_mem_nil _)
      t.fields
    have hid : (addFields file t.name d [] t.fields).1.table.Has id :=
      (htypes (t, id) (by simp)).mono hone.initial
    have hdefined : d.Grown { (addFields file t.name d [] t.fields).1 with
        table := (addFields file t.name d [] t.fields).1.table.defineFields id
          (addFields file t.name d [] t.fields).2 } :=
      ⟨⟨hone.valid.base.defineFields hid hfields, hone.valid.typed.mono List.prefix_rfl,
        hone.valid.noErrors⟩, hone.initial⟩
    rw [addSchemas]
    exact hdefined.trans (ih hdefined.valid fun p hp =>
      (htypes p (by simp [hp])).mono hdefined.initial)

/-- Declaring globals keeps declarations valid. -/
theorem addGlobals_grown (h : d.Valid) (file : Option String) (gs : List GlobalDecl) :
    d.Grown (addGlobals file d gs) := by
  induction gs generalizing d with
  | nil => exact h.grown
  | cons g gs ih =>
    rw [addGlobals]
    split
    · have hreport := h.report file (.duplicateDeclaration g.name) g.position
      exact hreport.trans (ih hreport.valid)
    · obtain ⟨hone, htype⟩ := resolve_grown h file g.type
      have hsymbol := hone.valid.withSymbols (hone.valid.typed.addGlobal
        (g := ⟨g.name, (d.resolve file g.type).1, .ofPosition file (some g.position)⟩) htype)
      exact (hone.trans hsymbol).trans (ih hsymbol.valid)

/-- Resolving parameters keeps declarations valid, and their types are in the table. -/
theorem resolveParams_grown (h : d.Valid) (file : Option String) (ps : List ParamDecl) :
    d.Grown (resolveParams file d ps).2 ∧
      ∀ id ∈ (resolveParams file d ps).1, (resolveParams file d ps).2.table.Has id := by
  induction ps generalizing d with
  | nil => exact ⟨h.grown, by simp [resolveParams]⟩
  | cons p ps ih =>
    obtain ⟨hone, htype⟩ := resolve_grown h file p.type
    obtain ⟨hrest, htypes⟩ := ih hone.valid
    rw [resolveParams]
    refine ⟨hone.trans hrest, fun id hid => ?_⟩
    rcases List.mem_cons.mp hid with rfl | hid
    · exact htype.mono hrest.initial
    · exact htypes id hid

/-- Declaring functions keeps declarations valid. -/
theorem addFunctions_grown (h : d.Valid) (file : Option String) (fs : List FunctionDecl) :
    d.Grown (addFunctions file d fs) := by
  induction fs generalizing d with
  | nil => exact h.grown
  | cons f fs ih =>
    rw [addFunctions]
    split
    · have hreport := h.report file (.duplicateDeclaration f.name) f.position
      exact hreport.trans (ih hreport.valid)
    · obtain ⟨hparams, htypes⟩ := resolveParams_grown h file f.params
      obtain ⟨hresult, htype⟩ := resolve_grown hparams.valid file f.result
      have hsymbol := hresult.valid.withSymbols (hresult.valid.typed.addFunction
        (f := ⟨f.name, (resolveParams file d f.params).1,
          ((resolveParams file d f.params).2.resolve file f.result).1,
          .ofPosition file (some f.position)⟩)
        (fun id hid => (htypes id hid).mono hresult.initial) htype)
      exact ((hparams.trans hresult).trans hsymbol).trans (ih hsymbol.valid)

/-- The builtin types alone are valid declarations. -/
theorem start_valid : Valid { table := TypeTable.withBuiltins {} } := by
  refine ⟨TypeTable.base_withBuiltins, ⟨by simp, by simp⟩, fun _ id d hd => ?_⟩
  have hnone : ∀ d ∈ (TypeTable.withBuiltins {}).defs, d.shape.isError = false := by decide
  obtain ⟨i, _, hi⟩ := TypeTable.get?_eq_some_iff.mp hd
  exact hnone d (List.mem_of_getElem? hi)

/-- The declarations of a program are valid. -/
theorem ofProgram_valid (file : Option String) (p : Program) : (ofProgram file p).Valid := by
  obtain ⟨htypes, hids⟩ := addTypes_grown start_valid file p.types
  have hschemas := addSchemas_grown htypes.valid file hids
  have hglobals := addGlobals_grown hschemas.valid file p.globals
  exact (addFunctions_grown hglobals.valid file p.functions).valid

end Declared

end AnonymousObjects
