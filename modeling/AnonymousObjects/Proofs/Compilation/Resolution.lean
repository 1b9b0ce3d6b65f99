import AnonymousObjects.Proofs.Compilation.References

/-!
# What a program declares

The first declaration of each name counts, among types, among the fields of a type, and among
globals and functions together; later ones are reported and dropped, and so are the references in
them. `Compilation.Represents` says what types, fields, globals and functions there are then, and
what has been reported. There is a lemma for what each pass adds, and `ofProgram_represents` puts
them together.
-/

namespace AnonymousObjects

open Syntax (FieldDecl FunctionDecl GlobalDecl ParamDecl Program TypeDecl TypeDeclKind TypeRef)

/-- The kind of the type that a declaration makes. -/
def Syntax.TypeDeclKind.shape : TypeDeclKind → TypeShape
  | .classType => .reference
  | .structType => .value
  | .refStructType => .restricted

variable {t u : TypeTable} {file : Option String}

/-! ## What is declared -/

/-- A field as it is declared. -/
structure FieldSchema.Of (t : TypeTable) (f : FieldDecl) (schema : FieldSchema) : Prop where
  name : schema.name = f.name
  isStatic : schema.isStatic = f.isStatic
  type : t.Denotes f.type schema.type

/-- A global as it is declared. -/
structure GlobalSymbol.Of (t : TypeTable) (file : Option String) (g : GlobalDecl)
    (symbol : GlobalSymbol) : Prop where
  name : symbol.name = g.name
  type : t.Denotes g.type symbol.type
  span : symbol.span = .ofPosition file (some g.position)

/-- A function as it is declared. -/
structure FunctionSymbol.Of (t : TypeTable) (file : Option String) (f : FunctionDecl)
    (symbol : FunctionSymbol) : Prop where
  name : symbol.name = f.name
  params : List.Forall₂ (fun p id => t.Denotes p.type id) f.params symbol.params
  result : t.Denotes f.result symbol.result
  span : symbol.span = .ofPosition file (some f.position)

/-- A field stays that of its declaration in a table with more unnamed types. -/
theorem FieldSchema.Of.mono {f : FieldDecl} {schema : FieldSchema} (h : schema.Of t f)
    (hg : t.GrowsUnnamed u) : schema.Of u f :=
  ⟨h.name, h.isStatic, h.type.mono hg⟩

/-- A global stays that of its declaration in a table with more unnamed types. -/
theorem GlobalSymbol.Of.mono {g : GlobalDecl} {symbol : GlobalSymbol} (h : symbol.Of t file g)
    (hg : t.GrowsUnnamed u) : symbol.Of u file g :=
  ⟨h.name, h.type.mono hg, h.span⟩

namespace Declared

/-! ## Types -/

section Types

variable {d : Declared} {taken : List String}

/-- A new type has its name in source text, unless an earlier one has it. -/
theorem lookup_add_named (t : TypeTable) {e : TypeDef} (hnamed : e.shape.isNamed = true)
    (n : String) :
    (t.add e).2.lookup n = (t.lookup n).or (if e.name = n then some (t.add e).1 else none) := by
  simp only [TypeTable.lookup, TypeTable.find?, TypeTable.add, List.findIdx?_append, Option.map_or]
  by_cases hn : e.name = n <;> simp [hnamed, hn, TypeTable.size]

/-- A type whose name is in use is reported and passed over. -/
theorem addTypes_cons_of_some {t : TypeDecl} {ts : List TypeDecl} {id : TypeId}
    (h : d.table.lookup t.name = some id) :
    addTypes file d (t :: ts) =
      addTypes file (d.report file (.duplicateDeclaration t.name) t.position) ts := by
  obtain ⟨position, kind, name, fields⟩ := t
  rw [addTypes]
  cases kind <;>
    simp [TypeTable.declareClass, TypeTable.declareStruct, TypeTable.declare, h]

/-- A type whose name is free is added. -/
theorem addTypes_cons_of_none {t : TypeDecl} {ts : List TypeDecl}
    (h : d.table.lookup t.name = none) :
    let made := d.table.add ⟨t.kind.shape, t.name⟩
    let rest := addTypes file { d with table := made.2 } ts
    addTypes file d (t :: ts) = (rest.1, (t, made.1) :: rest.2) := by
  obtain ⟨position, kind, name, fields⟩ := t
  dsimp only
  rw [addTypes]
  cases kind <;>
    simp [TypeTable.declareClass, TypeTable.declareStruct, TypeTable.declare, h, TypeDeclKind.shape]

/-- What the pass over types adds. -/
structure TypesAdded (file : Option String) (taken : List String) (ts : List TypeDecl)
    (d : Declared) (made : Declared × List (TypeDecl × TypeId)) : Prop where
  symbols : made.1.symbols = d.symbols
  schemas : made.1.table.schemas = d.table.schemas
  initial : d.table.defs <+: made.1.table.defs
  lookup : ∀ n id, d.table.lookup n = some id → made.1.table.lookup n = some id
  knows : made.1.table.Knows (taken ++ ts.map (·.name))
  kept : made.2.map (·.1) = kept (·.name) taken ts
  types : ∀ q ∈ made.2, made.1.table.lookup q.1.name = some q.2 ∧
    made.1.table.get? q.2 = some ⟨q.1.kind.shape, q.1.name⟩
  problems : made.1.problems = d.problems ++ typeReports file taken ts

/-- The pass over types adds the first type of each free name and reports the others. -/
theorem addTypes_added (hknows : d.table.Knows taken) (file : Option String) (ts : List TypeDecl) :
    TypesAdded file taken ts d (addTypes file d ts) := by
  induction ts generalizing d taken with
  | nil =>
    refine ⟨rfl, rfl, List.prefix_rfl, fun _ _ h => h, ?_, rfl, by simp [addTypes], ?_⟩
    · simpa [addTypes] using hknows
    · simp [addTypes, typeReports]
  | cons t ts ih =>
    cases hlookup : d.table.lookup t.name with
    | some id =>
      have hmem : t.name ∈ taken := (hknows t.name).mp (by simp [hlookup])
      -- The name is taken, so nothing but a report is added.
      have hrest := ih (d := d.report file (.duplicateDeclaration t.name) t.position) hknows
      rw [addTypes_cons_of_some hlookup]
      refine ⟨hrest.symbols, hrest.schemas, hrest.initial, hrest.lookup, ?_, ?_, hrest.types, ?_⟩
      · exact fun n => (hrest.knows n).trans (mem_append_cons_of_mem hmem).symm
      · rw [hrest.kept, kept_cons_of_mem hmem]
      · rw [hrest.problems, typeReports, eachNamed_cons_of_mem hmem, ← typeReports]
        simp [Declared.report, duplicateReport, complaint]
    | none =>
      have hmem : t.name ∉ taken := fun h => by simp [hlookup, ← hknows t.name] at h
      have hnamed : t.kind.shape.isNamed = true := by cases t.kind <;> rfl
      have hadd := lookup_add_named d.table (e := ⟨t.kind.shape, t.name⟩) hnamed
      have hknows' : (d.table.add ⟨t.kind.shape, t.name⟩).2.Knows (taken ++ [t.name]) := by
        intro n
        rw [hadd, Option.isSome_or, Bool.or_eq_true, hknows n]
        by_cases hn : t.name = n
        · simp [hn]
        · simp [hn, Ne.symm hn]
      have hrest := ih (d := { d with table := (d.table.add ⟨t.kind.shape, t.name⟩).2 }) hknows'
      rw [addTypes_cons_of_none hlookup]
      refine ⟨hrest.symbols, hrest.schemas, (TypeTable.defs_add _ _).trans hrest.initial, ?_, ?_,
        ?_, ?_, ?_⟩
      · intro n id hid
        exact hrest.lookup n id (by rw [hadd, hid, Option.some_or])
      · simpa using hrest.knows
      · rw [List.map_cons, hrest.kept, kept_cons_of_not_mem hmem]
      · refine List.forall_mem_cons.mpr ⟨⟨?_, ?_⟩, hrest.types⟩
        · exact hrest.lookup _ _ (by rw [hadd, hlookup]; simp)
        · exact TypeTable.get?_mono hrest.initial (TypeTable.get?_add _ _)
      · rw [hrest.problems, typeReports, eachNamed_cons_of_not_mem hmem, ← typeReports]
        simp

/-- Different types that are added have different ids. -/
theorem TypesAdded.nodup {ts : List TypeDecl} {made : Declared × List (TypeDecl × TypeId)}
    (h : TypesAdded file taken ts d made) : (made.2.map (·.2)).Nodup := by
  have hnames : (made.2.map (·.1.name)).Nodup := by
    have hkept := nodup_map_kept (·.name) taken ts
    rwa [← h.kept, List.map_map] at hkept
  refine List.Nodup.map_on ?_ hnames.of_map
  intro q hq q' hq' hid
  refine List.inj_on_of_nodup_map hnames hq hq' ?_
  have hdefs := (h.types q hq).2.symm.trans (hid ▸ (h.types q' hq').2)
  simpa using congrArg TypeDef.name (Option.some.inj hdefs)

end Types

/-! ## Fields -/

section Fields

variable {d : Declared} {names : List String}

/-- A field whose name is in use is reported and passed over. -/
theorem addFields_cons_of_mem {owner : String} {fields : List FieldSchema} {f : FieldDecl}
    {fs : List FieldDecl} (hmem : f.name ∈ fields.map (·.name)) :
    addFields file owner d fields (f :: fs) =
      addFields file owner
        (d.report file (.duplicateDeclaration (owner ++ "." ++ f.name)) f.position) fields fs := by
  rw [addFields, if_pos (by simpa using hmem)]

/-- A field whose name is free is added with the type that its reference leads to. -/
theorem addFields_cons_of_not_mem {owner : String} {fields : List FieldSchema} {f : FieldDecl}
    {fs : List FieldDecl} (hmem : f.name ∉ fields.map (·.name)) :
    addFields file owner d fields (f :: fs) =
      addFields file owner (d.resolve file f.type).2
        (fields ++ [⟨f.name, (d.resolve file f.type).1, f.isStatic⟩]) fs := by
  rw [addFields, if_neg (by simpa using hmem)]

/-- The fields of a type that count are added to those read already. -/
theorem addFields_resolves (hnames : d.table.Knows names) (file : Option String) (owner : String)
    (fields : List FieldSchema) (fs : List FieldDecl) :
    let made := addFields file owner d fields fs
    d.Resolves made.1 (fieldReports file names owner (fields.map (·.name)) fs) ∧
      ∃ added, made.2 = fields ++ added ∧
        List.Forall₂ (FieldSchema.Of made.1.table) (kept (·.name) (fields.map (·.name)) fs)
          added := by
  induction fs generalizing d fields with
  | nil => exact ⟨.refl d, [], (List.append_nil _).symm, .nil⟩
  | cons f fs ih =>
    dsimp only
    by_cases hmem : f.name ∈ fields.map (·.name)
    · have hreport := Resolves.report d file (.duplicateDeclaration (owner ++ "." ++ f.name))
        f.position
      obtain ⟨hrest, hadded⟩ := ih (hnames.mono hreport.table) fields
      rw [addFields_cons_of_mem hmem, fieldReports, eachNamed_cons_of_mem hmem,
        kept_cons_of_mem hmem]
      exact ⟨hreport.trans hrest, hadded⟩
    · obtain ⟨hone, htype⟩ := resolve_resolves hnames file f.type
      let schema : FieldSchema := ⟨f.name, (d.resolve file f.type).1, f.isStatic⟩
      obtain ⟨hrest, added, hadded, hall⟩ := ih (hnames.mono hone.table) (fields ++ [schema])
      simp only [List.map_append, List.map_cons, List.map_nil] at hrest hall
      rw [addFields_cons_of_not_mem hmem, fieldReports, eachNamed_cons_of_not_mem hmem,
        kept_cons_of_not_mem hmem]
      refine ⟨hone.trans hrest, schema :: added, ?_, .cons ?_ hall⟩
      · rw [hadded, ← List.append_cons]
      · exact ⟨rfl, rfl, htype.mono hrest.table⟩

/-- The fields of a type after others may have been given to other types. -/
theorem fieldsOf_defineFields (t : TypeTable) (id id' : TypeId) (fields : List FieldSchema) :
    (t.defineFields id' fields).fieldsOf id = if id' = id then fields else t.fieldsOf id := by
  simp only [TypeTable.fieldsOf, TypeTable.defineFields, List.find?_cons]
  by_cases h : id' = id <;> simp [h]

/-- Types get the fields that count, and other types keep theirs. -/
theorem addSchemas_follows (hnames : d.table.Knows names) (file : Option String)
    {types : List (TypeDecl × TypeId)} (hids : (types.map (·.2)).Nodup) :
    let made := addSchemas file d types
    d.Follows made (types.flatMap fun q => fieldReports file names q.1.name [] q.1.fields) ∧
      made.symbols = d.symbols ∧
      (∀ q ∈ types, List.Forall₂ (FieldSchema.Of made.table) (kept (·.name) [] q.1.fields)
        (made.table.fieldsOf q.2)) ∧
      ∀ id ∉ types.map (·.2), made.table.fieldsOf id = d.table.fieldsOf id := by
  induction types generalizing d with
  | nil => exact ⟨⟨.refl _, by simp [addSchemas]⟩, rfl, by simp, fun _ _ => rfl⟩
  | cons q types ih =>
    obtain ⟨t, id⟩ := q
    obtain ⟨hfresh, hids⟩ := List.nodup_cons.mp hids
    obtain ⟨hone, fields, hmade, hfields⟩ := addFields_resolves hnames file t.name [] t.fields
    rw [List.nil_append] at hmade
    -- Giving a type its fields leaves the types themselves as they are.
    have hdefined : d.table.GrowsUnnamed
        ((addFields file t.name d [] t.fields).1.table.defineFields id fields) := hone.table
    obtain ⟨hrest, hsymbols, hall, hothers⟩ :=
      ih (d := { (addFields file t.name d [] t.fields).1 with
          table := (addFields file t.name d [] t.fields).1.table.defineFields id fields })
        (hnames.mono hdefined) hids
    intro made
    have hmade' : made = addSchemas file { (addFields file t.name d [] t.fields).1 with
        table := (addFields file t.name d [] t.fields).1.table.defineFields id fields } types := by
      simp [made, addSchemas, hmade]
    rw [hmade']
    refine ⟨⟨hdefined.trans hrest.table, ?_⟩, hsymbols.trans hone.symbols, ?_, ?_⟩
    · rw [hrest.problems, hone.problems, List.flatMap_cons, List.append_assoc]
      rfl
    · refine List.forall_mem_cons.mpr ⟨?_, hall⟩
      rw [hothers id hfresh, fieldsOf_defineFields, if_pos rfl]
      exact hfields.imp fun _ _ h => h.mono hrest.table
    · intro id' hid'
      simp only [List.map_cons, List.mem_cons, not_or] at hid'
      rw [hothers id' hid'.2, fieldsOf_defineFields, if_neg (Ne.symm hid'.1)]
      simp only [TypeTable.fieldsOf, hone.schemas]

end Fields

/-! ## Globals and functions -/

section Symbols

variable {d : Declared} {names taken : List String} {symbols : SymbolTable}

/-- The names of globals and functions are just these. -/
def Uses (symbols : SymbolTable) (taken : List String) : Prop :=
  ∀ n, symbols.isDeclared n = true ↔ n ∈ taken

/-- A name is declared where a global or a function has it. -/
theorem isDeclared_iff {n : String} :
    symbols.isDeclared n = true ↔
      n ∈ symbols.globals.map (·.name) ∨ n ∈ symbols.functions.map (·.name) := by
  simp [SymbolTable.isDeclared, SymbolTable.global?, SymbolTable.function?, List.find?_isSome]

/-- A global that is added uses its name. -/
theorem Uses.addGlobal (h : Uses symbols taken) (g : GlobalSymbol) :
    Uses { symbols with globals := symbols.globals ++ [g] } (taken ++ [g.name]) := by
  intro n
  have hn := h n
  rw [isDeclared_iff] at hn ⊢
  rw [List.mem_append, ← hn, List.map_append, List.mem_append, or_right_comm]
  rfl

/-- A function that is added uses its name. -/
theorem Uses.addFunction (h : Uses symbols taken) (f : FunctionSymbol) :
    Uses { symbols with functions := symbols.functions ++ [f] } (taken ++ [f.name]) := by
  intro n
  have hn := h n
  rw [isDeclared_iff] at hn ⊢
  rw [List.mem_append, ← hn, List.map_append, List.mem_append, or_assoc]
  rfl

/-- Declarations with one more global. -/
def withGlobal (d : Declared) (g : GlobalSymbol) : Declared :=
  { d with symbols := { d.symbols with globals := d.symbols.globals ++ [g] } }

/-- Declarations with one more function. -/
def withFunction (d : Declared) (f : FunctionSymbol) : Declared :=
  { d with symbols := { d.symbols with functions := d.symbols.functions ++ [f] } }

/-- A global whose name is in use is reported and passed over. -/
theorem addGlobals_cons_of_mem (htaken : Uses d.symbols taken) {g : GlobalDecl}
    {gs : List GlobalDecl} (hmem : g.name ∈ taken) :
    addGlobals file d (g :: gs) =
      addGlobals file (d.report file (.duplicateDeclaration g.name) g.position) gs := by
  rw [addGlobals, if_pos ((htaken g.name).mpr hmem)]

/-- A global whose name is free is added with the type that its reference leads to. -/
theorem addGlobals_cons_of_not_mem (htaken : Uses d.symbols taken) {g : GlobalDecl}
    {gs : List GlobalDecl} (hmem : g.name ∉ taken) :
    addGlobals file d (g :: gs) =
      addGlobals file ((d.resolve file g.type).2.withGlobal
        ⟨g.name, (d.resolve file g.type).1, .ofPosition file (some g.position)⟩) gs := by
  rw [addGlobals, if_neg (mt (htaken g.name).mp hmem)]
  rfl

/-- The globals that count are added to those there are. -/
theorem addGlobals_follows (hnames : d.table.Knows names) (htaken : Uses d.symbols taken)
    (file : Option String) (gs : List GlobalDecl) :
    d.Follows (addGlobals file d gs) (globalReports file names taken gs) ∧
      (addGlobals file d gs).table.schemas = d.table.schemas ∧
      Uses (addGlobals file d gs).symbols (taken ++ gs.map (·.name)) ∧
      (addGlobals file d gs).symbols.functions = d.symbols.functions ∧
      ∃ added, (addGlobals file d gs).symbols.globals = d.symbols.globals ++ added ∧
        List.Forall₂ (GlobalSymbol.Of (addGlobals file d gs).table file)
          (kept (·.name) taken gs) added := by
  induction gs generalizing d taken with
  | nil =>
    refine ⟨(Resolves.refl d).toFollows, rfl, ?_, rfl, [], (List.append_nil _).symm, .nil⟩
    simpa [addGlobals] using htaken
  | cons g gs ih =>
    by_cases hmem : g.name ∈ taken
    · have hreport := Resolves.report d file (.duplicateDeclaration g.name) g.position
      obtain ⟨hrest, hschemas, huses, hfunctions, hadded⟩ := ih (hnames.mono hreport.table)
        (d := d.report file (.duplicateDeclaration g.name) g.position) htaken
      rw [addGlobals_cons_of_mem htaken hmem, globalReports, eachNamed_cons_of_mem hmem,
        kept_cons_of_mem hmem]
      exact ⟨hreport.toFollows.trans hrest, hschemas,
        fun n => (huses n).trans (mem_append_cons_of_mem hmem).symm, hfunctions, hadded⟩
    · obtain ⟨hone, htype⟩ := resolve_resolves hnames file g.type
      -- The rest is added to what has this symbol too, so its name is taken from here on.
      let symbol : GlobalSymbol :=
        ⟨g.name, (d.resolve file g.type).1, .ofPosition file (some g.position)⟩
      obtain ⟨hrest, hschemas, huses, hfunctions, added, hadded, hall⟩ :=
        ih (d := (d.resolve file g.type).2.withGlobal symbol) (hnames.mono hone.table)
          (Uses.addGlobal (hone.symbols.symm ▸ htaken) symbol)
      rw [addGlobals_cons_of_not_mem htaken hmem, globalReports, eachNamed_cons_of_not_mem hmem,
        kept_cons_of_not_mem hmem]
      refine ⟨⟨hone.table.trans hrest.table, ?_⟩, hschemas.trans hone.schemas, ?_,
        hfunctions.trans ?_, symbol :: added, ?_, .cons ⟨rfl, htype.mono hrest.table, rfl⟩ hall⟩
      · rw [hrest.problems, ← List.append_assoc, ← hone.problems]
        rfl
      · simpa [symbol] using huses
      · rw [← hone.symbols]
        rfl
      · rw [hadded, ← hone.symbols, List.append_cons]
        rfl

/-- A function whose name is in use is reported and passed over. -/
theorem addFunctions_cons_of_mem (htaken : Uses d.symbols taken) {f : FunctionDecl}
    {fs : List FunctionDecl} (hmem : f.name ∈ taken) :
    addFunctions file d (f :: fs) =
      addFunctions file (d.report file (.duplicateDeclaration f.name) f.position) fs := by
  rw [addFunctions, if_pos ((htaken f.name).mpr hmem)]

/-- A function whose name is free is added with the types that its references lead to. -/
theorem addFunctions_cons_of_not_mem (htaken : Uses d.symbols taken) {f : FunctionDecl}
    {fs : List FunctionDecl} (hmem : f.name ∉ taken) :
    let params := resolveParams file d f.params
    let result := params.2.resolve file f.result
    addFunctions file d (f :: fs) =
      addFunctions file (result.2.withFunction
        ⟨f.name, params.1, result.1, .ofPosition file (some f.position)⟩) fs := by
  intro params result
  rw [addFunctions, if_neg (mt (htaken f.name).mp hmem)]
  rfl

/-- The functions that count are added to those there are. -/
theorem addFunctions_follows (hnames : d.table.Knows names) (htaken : Uses d.symbols taken)
    (file : Option String) (fs : List FunctionDecl) :
    d.Follows (addFunctions file d fs) (functionReports file names taken fs) ∧
      (addFunctions file d fs).table.schemas = d.table.schemas ∧
      (addFunctions file d fs).symbols.globals = d.symbols.globals ∧
      ∃ added, (addFunctions file d fs).symbols.functions = d.symbols.functions ++ added ∧
        List.Forall₂ (FunctionSymbol.Of (addFunctions file d fs).table file)
          (kept (·.name) taken fs) added := by
  induction fs generalizing d taken with
  | nil => exact ⟨(Resolves.refl d).toFollows, rfl, rfl, [], (List.append_nil _).symm, .nil⟩
  | cons f fs ih =>
    by_cases hmem : f.name ∈ taken
    · have hreport := Resolves.report d file (.duplicateDeclaration f.name) f.position
      obtain ⟨hrest, hothers⟩ := ih (hnames.mono hreport.table)
        (d := d.report file (.duplicateDeclaration f.name) f.position) htaken
      rw [addFunctions_cons_of_mem htaken hmem, functionReports, eachNamed_cons_of_mem hmem,
        kept_cons_of_mem hmem]
      exact ⟨hreport.toFollows.trans hrest, hothers⟩
    · obtain ⟨hparams, hdenote⟩ := resolveParams_resolves hnames file f.params
      obtain ⟨hresult, htype⟩ := resolve_resolves (hnames.mono hparams.table) file f.result
      -- Parameters and result are resolved one after another, and reported as one list of
      -- references.
      have hone : d.Resolves ((resolveParams file d f.params).2.resolve file f.result).2
          (f.typeRefs.flatMap (unknownReports file names)) := by
        rw [FunctionDecl.typeRefs, List.flatMap_append, List.flatMap_singleton]
        exact hparams.trans hresult
      let params := resolveParams file d f.params
      let result := params.2.resolve file f.result
      let symbol : FunctionSymbol :=
        ⟨f.name, params.1, result.1, .ofPosition file (some f.position)⟩
      obtain ⟨hrest, hschemas, hglobals, added, hadded, hall⟩ :=
        ih (d := result.2.withFunction symbol) (hnames.mono hone.table)
          (Uses.addFunction (hone.symbols.symm ▸ htaken) symbol)
      rw [addFunctions_cons_of_not_mem htaken hmem, functionReports,
        eachNamed_cons_of_not_mem hmem, kept_cons_of_not_mem hmem]
      refine ⟨⟨hone.table.trans hrest.table, ?_⟩, hschemas.trans hone.schemas, hglobals.trans ?_,
        symbol :: added, ?_, .cons ⟨rfl, ?_, htype.mono hrest.table, rfl⟩ hall⟩
      · rw [hrest.problems, ← List.append_assoc, ← hone.problems]
        rfl
      · rw [← hone.symbols]
        rfl
      · rw [hadded, ← hone.symbols, List.append_cons]
        rfl
      · exact hdenote.imp fun _ _ h => (h.mono hresult.table).mono hrest.table

end Symbols

end Declared

/-! ## All passes -/

namespace TypeTable

open Declared (kept)

variable {p : Program}

/-- What types a program declares. -/
structure Represents (t : TypeTable) (p : Program) : Prop where
  /-- A builtin name is that of the builtin type, which has no fields. -/
  builtins (b : Builtin) : ∃ id, t.lookup b.name = some id ∧ t.get? id = some ⟨b.shape, b.name⟩ ∧
    t.fieldsOf id = []
  /-- Any other name is that of the type that the first declaration of it makes, of the kind that
  the keyword says. The fields are the first ones of each name, in order. -/
  types (name : String) (decl : TypeDecl) : name ∉ builtinNames →
    p.types.find? (·.name = name) = some decl →
      ∃ id, t.lookup name = some id ∧ t.get? id = some ⟨decl.kind.shape, name⟩ ∧
        List.Forall₂ (FieldSchema.Of t) (kept (·.name) [] decl.fields) (t.fieldsOf id)
  /-- There are no other names of types. -/
  names : t.Knows p.typeNames

/-- Types without a name in source text may be added. -/
theorem Represents.mono (h : t.Represents p) (hg : t.GrowsUnnamed u)
    (hschemas : u.schemas = t.schemas) : u.Represents p := by
  have hfields (id : TypeId) : u.fieldsOf id = t.fieldsOf id := by
    simp only [fieldsOf, hschemas]
  refine ⟨fun b => ?_, fun name decl hfree hfirst => ?_, h.names.mono hg⟩
  · obtain ⟨id, hlookup, hget, hnone⟩ := h.builtins b
    exact ⟨id, (hg.lookup _).trans hlookup, hg.get? hget, (hfields id).trans hnone⟩
  · obtain ⟨id, hlookup, hget, hall⟩ := h.types name decl hfree hfirst
    refine ⟨id, (hg.lookup _).trans hlookup, hg.get? hget, ?_⟩
    rw [hfields id]
    exact hall.imp fun _ _ hf => hf.mono hg

/-- A name is found where a named type has it. -/
theorem isSome_lookup_iff {n : String} :
    (t.lookup n).isSome = true ↔ ∃ d ∈ t.defs, d.shape.isNamed = true ∧ d.name = n := by
  simp [lookup, find?, List.findIdx?_isSome]

/-- At first the builtin types are known. -/
theorem knows_withBuiltins : (withBuiltins {}).Knows builtinNames := by
  intro n
  have hdefs : (withBuiltins {}).defs = Builtin.all.map fun b => ⟨b.shape, b.name⟩ := by decide
  have hnamed : ∀ b : Builtin, b.shape.isNamed = true := by intro b; cases b <;> rfl
  simp [isSome_lookup_iff, hdefs, builtinNames, hnamed]

end TypeTable

namespace Declared

variable {p : Program}

/-- The declarations of the types of a program, with their fields. -/
def ofTypes (file : Option String) (p : Program) : Declared :=
  addSchemas file (addTypes file { table := TypeTable.withBuiltins {} } p.types).1
    (addTypes file { table := TypeTable.withBuiltins {} } p.types).2

/-- The functions of a program are declared after its globals, and those after its types. -/
theorem ofProgram_eq (file : Option String) (p : Program) :
    ofProgram file p = addFunctions file (addGlobals file (ofTypes file p) p.globals) p.functions :=
  rfl

/-- Every builtin type is among the names that are known from the start. -/
theorem mem_builtinNames (b : Builtin) : b.name ∈ builtinNames := by
  cases b <;> decide

/-- The first two passes declare the types of a program. -/
theorem ofTypes_represents (file : Option String) (p : Program) :
    (ofTypes file p).table.Represents p ∧ (ofTypes file p).symbols = {} ∧
      (ofTypes file p).problems = typeReports file builtinNames p.types ++
        (kept (·.name) builtinNames p.types).flatMap fun t =>
          fieldReports file p.typeNames t.name [] t.fields := by
  have htypes := addTypes_added (d := { table := TypeTable.withBuiltins {} })
    TypeTable.knows_withBuiltins file p.types
  obtain ⟨hschemas, hsymbols, hfields, hothers⟩ :=
    addSchemas_follows htypes.knows file htypes.nodup
  refine ⟨⟨fun b => ?_, fun name decl hfree hfirst => ?_, htypes.knows.mono hschemas.table⟩,
    hsymbols.trans htypes.symbols, ?_⟩
  · obtain ⟨id, hlookup, hget⟩ := TypeTable.base_withBuiltins.builtins b
    have hget' := TypeTable.get?_mono htypes.initial hget
    refine ⟨id, (hschemas.table.lookup _).trans (htypes.lookup _ _ hlookup),
      hschemas.table.get? hget', ?_⟩
    -- The types that get fields have other names, so the builtin type is none of them.
    have hother : id ∉ (addTypes file { table := TypeTable.withBuiltins {} } p.types).2.map
        (·.2) := by
      intro hmem
      obtain ⟨q, hq, rfl⟩ := List.mem_map.mp hmem
      have hname : q.1.name = b.name := by
        have hdefs := (htypes.types q hq).2.symm.trans hget'
        simpa using congrArg TypeDef.name (Option.some.inj hdefs)
      have hfresh : q.1.name ∈ (kept (·.name) builtinNames p.types).map (·.name) := by
        rw [← htypes.kept]
        exact List.mem_map_of_mem (List.mem_map_of_mem hq)
      exact (mem_map_kept.mp hfresh).1 (hname ▸ mem_builtinNames b)
    have hnone : (TypeTable.withBuiltins {}).schemas = [] := by decide
    refine (hothers id hother).trans ?_
    simp [TypeTable.fieldsOf, htypes.schemas, hnone]
  · have hfirst' : (kept (·.name) builtinNames p.types).find? (·.name = name) = some decl := by
      rw [find?_kept, if_neg hfree, hfirst]
    obtain rfl : decl.name = name := by simpa using List.find?_some hfirst
    have hmem := List.mem_of_find?_eq_some hfirst'
    rw [← htypes.kept] at hmem
    obtain ⟨⟨_, id⟩, hq, rfl⟩ := List.mem_map.mp hmem
    obtain ⟨hlookup, hget⟩ := htypes.types _ hq
    exact ⟨id, (hschemas.table.lookup _).trans hlookup, hschemas.table.get? hget, hfields _ hq⟩
  · rw [ofTypes, hschemas.problems, htypes.problems, ← htypes.kept, List.flatMap_map]
    rfl

end Declared

namespace Compilation

open Declared

/-- What has been declared by a program, and what has been reported about it. -/
structure Represents (c : Compilation) (file : Option String) (p : Program) : Prop where
  /-- The types are those of the program. -/
  table : c.table.Represents p
  /-- The globals are the first ones of each name, in order. -/
  globals : List.Forall₂ (GlobalSymbol.Of c.table file) (kept (·.name) [] p.globals)
    c.symbols.globals
  /-- The functions are the first ones of each name that no global has, in order. -/
  functions : List.Forall₂ (FunctionSymbol.Of c.table file)
    (kept (·.name) (p.globals.map (·.name)) p.functions) c.symbols.functions
  /-- Each declaration that is dropped is reported once, and so is each reference to no type in one
  that is not dropped. -/
  problems : c.problems = reports file p

/-- The declarations of a program are what has been declared, with the reports about the others. -/
theorem represents (p : Program) (nullable : Option Bool) (file : Option String) :
    (ofProgram p nullable file).Represents file p := by
  obtain ⟨htypes, hsymbols, hproblems⟩ := ofTypes_represents file p
  have hunused : Uses (ofTypes file p).symbols [] := by
    rw [hsymbols]
    simp [Uses, isDeclared_iff]
  obtain ⟨hglobals, hschemas, huses, hnone, globals, hadded, hglobalsOf⟩ :=
    addGlobals_follows htypes.names hunused file p.globals
  obtain ⟨hfunctions, hschemas', hsame, functions, hadded', hfunctionsOf⟩ :=
    addFunctions_follows (htypes.names.mono hglobals.table) huses file p.functions
  refine ⟨htypes.mono (hglobals.table.trans hfunctions.table) (hschemas'.trans hschemas),
    ?_, ?_, ?_⟩
  · have hglobals' : (ofProgram p nullable file).symbols.globals = globals := by
      show (Declared.ofProgram file p).symbols.globals = globals
      rw [ofProgram_eq, hsame, hadded, hsymbols, List.nil_append]
    rw [hglobals']
    exact hglobalsOf.imp fun _ _ hg => hg.mono hfunctions.table
  · have hfunctions' : (ofProgram p nullable file).symbols.functions = functions := by
      show (Declared.ofProgram file p).symbols.functions = functions
      rw [ofProgram_eq, hadded', hnone, hsymbols, List.nil_append]
    rw [hfunctions']
    exact hfunctionsOf
  · show (Declared.ofProgram file p).problems = reports file p
    rw [ofProgram_eq, hfunctions.problems, hglobals.problems, hproblems]
    rfl

/-- What is declared by name is the first declaration of the name, and what is referred to by name
is the type of the name, wherever it is declared. Nothing is reported exactly if no declaration had
to be dropped and every reference is to a type; otherwise there is one report for each declaration
that is dropped and one for each reference to no type in those that are kept. -/
theorem ofProgram_represents (p : Program) (nullable : Option Bool) (file : Option String) :
    (ofProgram p nullable file).Represents file p ∧
      ((ofProgram p nullable file).problems = [] ↔
        (p.types.map (·.name)).Nodup ∧ (∀ t ∈ p.types, t.name ∉ builtinNames) ∧
          (∀ t ∈ p.types, (t.fields.map (·.name)).Nodup) ∧
          (p.globals.map (·.name) ++ p.functions.map (·.name)).Nodup ∧
          ∀ r ∈ p.typeRefs, r.name ∈ p.typeNames) ∧
      (ofProgram p nullable file).problems.Perm
        (duplicateReports file p ++ (keptRefs p).flatMap (unknownReports file p.typeNames)) := by
  have hrepresents := represents p nullable file
  rw [hrepresents.problems]
  exact ⟨hrepresents, reports_eq_nil_iff, reports_perm file p⟩

/-- A class is declared twice, and so is a field of its first declaration, whose type is declared
nowhere. Types are looked at before any field. -/
example :
    (ofProgram
      { types := [⟨⟨1, 1⟩, .classType, "A", [⟨⟨1, 11⟩, "x", ⟨⟨1, 14⟩, "B", 1⟩, false⟩,
            ⟨⟨1, 17⟩, "x", ⟨⟨1, 20⟩, "int", 0⟩, false⟩]⟩,
          ⟨⟨2, 1⟩, .classType, "A", []⟩] } none none).problems =
      [duplicateReport none "A" ⟨2, 1⟩, complaint none (.unknownType (Text.ofString "B")) ⟨1, 14⟩,
        duplicateReport none "A.x" ⟨1, 17⟩] := by
  decide

end Compilation

end AnonymousObjects
