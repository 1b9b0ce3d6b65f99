import AnonymousObjects.Proofs.Compilation.Declarations

/-!
# Declarations are not refused

The type table refuses to declare a name twice and to point to a type that does not exist, and a
message cannot be made without its arguments. `Declared.ofProgram` goes on after a refusal.
`Declared.checked` is the same pass made to stop at the first one, and `checked_eq` says that it
never stops: names are looked up before they are declared, every type that is pointed to exists, and
every problem brings the arguments of its message.
-/

namespace AnonymousObjects

open Syntax (FieldDecl FunctionDecl GlobalDecl ParamDecl Program TypeDecl TypeRef)

/-- Why a declaration is refused. -/
inductive Refusal where
  | alreadyDeclared (e : AlreadyDeclared)
  | unknownType (e : UnknownType)
  | missingArgument (hole : Nat)

namespace Declared

/-! ## The pass that stops -/

/-- One more problem, if its message has all its arguments. -/
def checkedReport (file : Option String) (d : Declared) (p : Problem) (position : Position) :
    Except Refusal Declared := do
  let span := Span.ofPosition file (some position)
  let made ← (Diagnostic.ofCode "declare" p.code span p.arguments).mapError .missingArgument
  pure { d with problems := d.problems ++ [made] }

/-- The type that a declaration adds to a table. -/
def checkedDeclare (table : TypeTable) (t : TypeDecl) : Except Refusal (TypeId × TypeTable) :=
  let made :=
    match t.kind with
    | .classType => table.declareClass t.name
    | .structType => table.declareStruct t.name false
    | .refStructType => table.declareStruct t.name true
  made.mapError .alreadyDeclared

/-- The types declared by a program. A name that is in use is not declared again. -/
def checkedTypes (file : Option String) :
    Declared → List TypeDecl → Except Refusal (Declared × List (TypeDecl × TypeId))
  | d, [] => pure (d, [])
  | d, t :: ts =>
    match d.table.lookup t.name with
    | some _ => do
      let d ← d.checkedReport file (.duplicateDeclaration t.name) t.position
      checkedTypes file d ts
    | none => do
      let (id, table) ← checkedDeclare d.table t
      let (d, rest) ← checkedTypes file { d with table := table } ts
      pure (d, (t, id) :: rest)

/-- The type that is `depth` pointers away from another. -/
def checkedPointers (table : TypeTable) (id : TypeId) : Nat → Except Refusal (TypeId × TypeTable)
  | 0 => pure (id, table)
  | depth + 1 => do
    let (target, table) ← (table.pointerTo id).mapError .unknownType
    checkedPointers table target depth

/-- The type that a reference denotes. -/
def checkedResolve (file : Option String) (d : Declared) (r : TypeRef) :
    Except Refusal (TypeId × Declared) :=
  match d.table.lookup r.name with
  | some id => do
    let (id, table) ← checkedPointers d.table id r.depth
    pure (id, { d with table := table })
  | none => do
    let d ← d.checkedReport file (.unknownType (Text.ofString r.name)) r.position
    let (id, table) := d.table.ensureError r.name
    pure (id, { d with table := table })

/-- The fields of a type, after those read already. -/
def checkedFields (file : Option String) (owner : String) :
    Declared → List FieldSchema → List FieldDecl → Except Refusal (Declared × List FieldSchema)
  | d, fields, [] => pure (d, fields)
  | d, fields, f :: rest =>
    if fields.any (·.name == f.name) then do
      let d ← d.checkedReport file (.duplicateDeclaration (owner ++ "." ++ f.name)) f.position
      checkedFields file owner d fields rest
    else do
      let (type, d) ← d.checkedResolve file f.type
      checkedFields file owner d (fields ++ [⟨f.name, type, f.isStatic⟩]) rest

/-- Types with their fields. -/
def checkedSchemas (file : Option String) :
    Declared → List (TypeDecl × TypeId) → Except Refusal Declared
  | d, [] => pure d
  | d, (t, id) :: rest => do
    let (d, fields) ← checkedFields file t.name d [] t.fields
    checkedSchemas file { d with table := d.table.defineFields id fields } rest

/-- The globals of a program. -/
def checkedGlobals (file : Option String) : Declared → List GlobalDecl → Except Refusal Declared
  | d, [] => pure d
  | d, g :: rest =>
    if d.symbols.isDeclared g.name then do
      let d ← d.checkedReport file (.duplicateDeclaration g.name) g.position
      checkedGlobals file d rest
    else do
      let (type, d) ← d.checkedResolve file g.type
      let symbol : GlobalSymbol := ⟨g.name, type, .ofPosition file (some g.position)⟩
      let symbols := { d.symbols with globals := d.symbols.globals ++ [symbol] }
      checkedGlobals file { d with symbols := symbols } rest

/-- The types of parameters. -/
def checkedParams (file : Option String) :
    Declared → List ParamDecl → Except Refusal (List TypeId × Declared)
  | d, [] => pure ([], d)
  | d, p :: rest => do
    let (type, d) ← d.checkedResolve file p.type
    let (types, d) ← checkedParams file d rest
    pure (type :: types, d)

/-- The functions of a program. -/
def checkedFunctions (file : Option String) :
    Declared → List FunctionDecl → Except Refusal Declared
  | d, [] => pure d
  | d, f :: rest =>
    if d.symbols.isDeclared f.name then do
      let d ← d.checkedReport file (.duplicateDeclaration f.name) f.position
      checkedFunctions file d rest
    else do
      let (params, d) ← checkedParams file d f.params
      let (result, d) ← d.checkedResolve file f.result
      let symbol : FunctionSymbol := ⟨f.name, params, result, .ofPosition file (some f.position)⟩
      let symbols := { d.symbols with functions := d.symbols.functions ++ [symbol] }
      checkedFunctions file { d with symbols := symbols } rest

/-- All declarations of a program, or the first refusal. -/
def checked (file : Option String) (p : Program) : Except Refusal Declared := do
  let (d, types) ← checkedTypes file { table := TypeTable.withBuiltins {} } p.types
  let d ← checkedSchemas file d types
  let d ← checkedGlobals file d p.globals
  checkedFunctions file d p.functions

/-! ## It does not stop -/

variable {d : Declared}

/-- A problem has the arguments of its message. -/
theorem checkedReport_eq (file : Option String) (d : Declared) (p : Problem)
    (position : Position) : d.checkedReport file p position = .ok (d.report file p position) := by
  simp only [checkedReport, Diagnostic.ofCode, p.fill_template]
  rfl

/-- No declaration of a type is refused by the table: a name in use is reported before. -/
theorem checkedTypes_eq (file : Option String) (d : Declared) (ts : List TypeDecl) :
    checkedTypes file d ts = .ok (addTypes file d ts) := by
  induction ts generalizing d with
  | nil => rfl
  | cons t ts ih =>
    rw [checkedTypes, addTypes]
    cases hname : d.table.lookup t.name with
    | some id =>
      have hrefused (shape : TypeShape) : d.table.declare shape t.name = .error ⟨t.name⟩ := by
        simp only [TypeTable.declare, hname]
      simp only [checkedReport_eq, TypeTable.declareClass, TypeTable.declareStruct, hrefused]
      cases t.kind <;> exact ih _
    | none =>
      -- The table takes a name that it does not know.
      have hmade (shape : TypeShape) :
          d.table.declare shape t.name = .ok (d.table.add ⟨shape, t.name⟩) := by
        simp only [TypeTable.declare, hname]
      simp only [checkedDeclare, TypeTable.declareClass, TypeTable.declareStruct, hmade]
      cases t.kind <;> simp only [Except.mapError, bind, Except.bind, ih] <;> rfl

/-- Pointers lead to types that exist. -/
theorem checkedPointers_eq {t : TypeTable} {id : TypeId} (h : t.Base) (hid : t.Has id)
    (depth : Nat) : checkedPointers t id depth = .ok (addPointers t id depth) := by
  induction depth generalizing t id with
  | zero => rfl
  | succ depth ih =>
    obtain ⟨made, hmade, hdeclares⟩ := h.pointerTo hid
    simp only [checkedPointers, addPointers, hmade]
    exact ih hdeclares.base hdeclares.has

/-- No reference is refused by the table: it is resolved to a type that exists. -/
theorem checkedResolve_eq (h : d.Valid) (file : Option String) (r : TypeRef) :
    d.checkedResolve file r = .ok (d.resolve file r) := by
  unfold checkedResolve resolve
  cases hname : d.table.lookup r.name with
  | some id =>
    obtain ⟨e, he, _⟩ := TypeTable.lookup_spec hname
    simp only [checkedPointers_eq h.base ⟨e, he⟩ r.depth]
    rfl
  | none =>
    simp only [checkedReport_eq]
    rfl

/-- No field is refused by the table. -/
theorem checkedFields_eq (h : d.Valid) (file : Option String) (owner : String)
    (fields : List FieldSchema) (fs : List FieldDecl) :
    checkedFields file owner d fields fs = .ok (addFields file owner d fields fs) := by
  induction fs generalizing d fields with
  | nil => rfl
  | cons f fs ih =>
    rw [checkedFields, addFields]
    split
    · rw [checkedReport_eq]
      exact ih (h.report file _ f.position).valid fields
    · rw [checkedResolve_eq h]
      exact ih (resolve_grown h file f.type).1.valid _

/-- The fields of types are never refused by the table. -/
theorem checkedSchemas_eq (h : d.Valid) (file : Option String) {types : List (TypeDecl × TypeId)}
    (htypes : ∀ p ∈ types, d.table.Has p.2) :
    checkedSchemas file d types = .ok (addSchemas file d types) := by
  induction types generalizing d with
  | nil => rfl
  | cons p rest ih =>
    obtain ⟨t, id⟩ := p
    obtain ⟨hone, hfields⟩ := addFields_grown h file t.name (List.forall_mem_nil _) t.fields
    have hid := (htypes (t, id) (by simp)).mono hone.initial
    have hdefined : Valid { (addFields file t.name d [] t.fields).1 with
        table := (addFields file t.name d [] t.fields).1.table.defineFields id
          (addFields file t.name d [] t.fields).2 } :=
      ⟨hone.valid.base.defineFields hid hfields, hone.valid.typed.mono List.prefix_rfl,
        hone.valid.noErrors⟩
    rw [checkedSchemas, addSchemas, checkedFields_eq h]
    exact ih hdefined fun p hp => (htypes p (by simp [hp])).mono hone.initial

/-- No global is refused by the table. -/
theorem checkedGlobals_eq (h : d.Valid) (file : Option String) (gs : List GlobalDecl) :
    checkedGlobals file d gs = .ok (addGlobals file d gs) := by
  induction gs generalizing d with
  | nil => rfl
  | cons g gs ih =>
    rw [checkedGlobals, addGlobals]
    split
    · rw [checkedReport_eq]
      exact ih (h.report file _ g.position).valid
    · obtain ⟨hone, htype⟩ := resolve_grown h file g.type
      rw [checkedResolve_eq h]
      exact ih (hone.valid.withSymbols (hone.valid.typed.addGlobal htype)).valid

/-- No parameter is refused by the table. -/
theorem checkedParams_eq (h : d.Valid) (file : Option String) (ps : List ParamDecl) :
    checkedParams file d ps = .ok (resolveParams file d ps) := by
  induction ps generalizing d with
  | nil => rfl
  | cons p ps ih =>
    simp only [checkedParams, checkedResolve_eq h]
    show (checkedParams file (d.resolve file p.type).2 ps).bind _ = _
    rw [ih (resolve_grown h file p.type).1.valid]
    rfl

/-- No function is refused by the table. -/
theorem checkedFunctions_eq (h : d.Valid) (file : Option String) (fs : List FunctionDecl) :
    checkedFunctions file d fs = .ok (addFunctions file d fs) := by
  induction fs generalizing d with
  | nil => rfl
  | cons f fs ih =>
    rw [checkedFunctions, addFunctions]
    split
    · rw [checkedReport_eq]
      exact ih (h.report file _ f.position).valid
    · obtain ⟨hparams, htypes⟩ := resolveParams_grown h file f.params
      obtain ⟨hresult, htype⟩ := resolve_grown hparams.valid file f.result
      have hsymbol := hresult.valid.typed.addFunction
        (f := ⟨f.name, (resolveParams file d f.params).1,
          ((resolveParams file d f.params).2.resolve file f.result).1,
          .ofPosition file (some f.position)⟩)
        (fun id hid => (htypes id hid).mono hresult.initial) htype
      rw [checkedParams_eq h]
      show ((resolveParams file d f.params).2.checkedResolve file f.result).bind _ = _
      rw [checkedResolve_eq hparams.valid]
      exact ih (hresult.valid.withSymbols hsymbol).valid

/-- The pass that stops at a refusal makes all declarations of a program. -/
theorem checked_eq (file : Option String) (p : Program) :
    checked file p = .ok (ofProgram file p) := by
  obtain ⟨htypes, hids⟩ := addTypes_grown start_valid file p.types
  have hschemas := addSchemas_grown htypes.valid file hids
  have hglobals := addGlobals_grown hschemas.valid file p.globals
  rw [checked, checkedTypes_eq]
  show (checkedSchemas file _ _).bind _ = _
  rw [checkedSchemas_eq htypes.valid file hids]
  show (checkedGlobals file _ _).bind _ = _
  rw [checkedGlobals_eq hschemas.valid]
  exact checkedFunctions_eq hglobals.valid file p.functions

end Declared

end AnonymousObjects
