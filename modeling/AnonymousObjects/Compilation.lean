import AnonymousObjects.Binding.Expr
import AnonymousObjects.Syntax.Program

/-!
# Compilations

`Compilation.ofProgram` declares the types, globals and functions of a program. `bindMember` then
binds the body of a member in a store that all members share, and `bindAll` does so for every member
in order. Results keep the order of the source text.
-/

namespace AnonymousObjects

open Syntax (FieldDecl FunctionDecl GlobalDecl MemberDecl ParamDecl Program TypeDecl TypeRef)

/-- A program whose declarations have been made. -/
structure Compilation where
  program : Program
  file : Option String
  nullable : Option Bool
  table : TypeTable
  symbols : SymbolTable
  problems : List Diagnostic

/-- The declarations made so far, with what was wrong with those that were not. -/
structure Declared where
  table : TypeTable
  symbols : SymbolTable := {}
  problems : List Diagnostic := []

namespace Declared

/-- One more problem. -/
def report (file : Option String) (d : Declared) (p : Problem) (position : Position) : Declared :=
  { d with problems := d.problems ++ [.ofProblem "declare" p (.ofPosition file (some position))] }

/-- The types declared by a program, each with its declaration. A name that is in use declares
nothing. -/
def addTypes (file : Option String) : Declared → List TypeDecl → Declared × List (TypeDecl × TypeId)
  | d, [] => (d, [])
  | d, t :: ts =>
    let made :=
      match t.kind with
      | .classType => d.table.declareClass t.name
      | .structType => d.table.declareStruct t.name false
      | .refStructType => d.table.declareStruct t.name true
    match made with
    | .error _ => addTypes file (d.report file (.duplicateDeclaration t.name) t.position) ts
    | .ok (id, table) =>
      let (d, rest) := addTypes file { d with table := table } ts
      (d, (t, id) :: rest)

/-- The type that is `depth` pointers away from another. -/
def addPointers (table : TypeTable) (id : TypeId) : Nat → TypeId × TypeTable
  | 0 => (id, table)
  | depth + 1 =>
    match table.pointerTo id with
    | .ok (target, table) => addPointers table target depth
    | .error _ => (id, table)

/-- The type that a reference denotes. A name without a type denotes the error type of that name,
without pointers. -/
def resolve (file : Option String) (d : Declared) (r : TypeRef) : TypeId × Declared :=
  match d.table.lookup r.name with
  | some id =>
    let (id, table) := addPointers d.table id r.depth
    (id, { d with table := table })
  | none =>
    let (id, table) := d.table.ensureError r.name
    (id, ({ d with table := table }).report file (.unknownType (Text.ofString r.name)) r.position)

/-- The fields of a type, after those read already. A name declares one field. -/
def addFields (file : Option String) (owner : String) :
    Declared → List FieldSchema → List FieldDecl → Declared × List FieldSchema
  | d, fields, [] => (d, fields)
  | d, fields, f :: rest =>
    if fields.any (·.name == f.name) then
      let d := d.report file (.duplicateDeclaration (owner ++ "." ++ f.name)) f.position
      addFields file owner d fields rest
    else
      let (type, d) := d.resolve file f.type
      addFields file owner d (fields ++ [⟨f.name, type, f.isStatic⟩]) rest

/-- Types with their fields. All names of types are known before the first field is read. -/
def addSchemas (file : Option String) : Declared → List (TypeDecl × TypeId) → Declared
  | d, [] => d
  | d, (t, id) :: rest =>
    let (d, fields) := addFields file t.name d [] t.fields
    addSchemas file { d with table := d.table.defineFields id fields } rest

/-- The globals of a program. -/
def addGlobals (file : Option String) : Declared → List GlobalDecl → Declared
  | d, [] => d
  | d, g :: rest =>
    if d.symbols.isDeclared g.name then
      addGlobals file (d.report file (.duplicateDeclaration g.name) g.position) rest
    else
      let (type, d) := d.resolve file g.type
      let symbol : GlobalSymbol := ⟨g.name, type, .ofPosition file (some g.position)⟩
      let symbols := { d.symbols with globals := d.symbols.globals ++ [symbol] }
      addGlobals file { d with symbols := symbols } rest

/-- The types of parameters. -/
def resolveParams (file : Option String) : Declared → List ParamDecl → List TypeId × Declared
  | d, [] => ([], d)
  | d, p :: rest =>
    let (type, d) := d.resolve file p.type
    let (types, d) := resolveParams file d rest
    (type :: types, d)

/-- The functions of a program. -/
def addFunctions (file : Option String) : Declared → List FunctionDecl → Declared
  | d, [] => d
  | d, f :: rest =>
    if d.symbols.isDeclared f.name then
      addFunctions file (d.report file (.duplicateDeclaration f.name) f.position) rest
    else
      let (params, d) := resolveParams file d f.params
      let (result, d) := d.resolve file f.result
      let symbol : FunctionSymbol := ⟨f.name, params, result, .ofPosition file (some f.position)⟩
      let symbols := { d.symbols with functions := d.symbols.functions ++ [symbol] }
      addFunctions file { d with symbols := symbols } rest

/-- All declarations of a program: types, then fields, then globals, then functions. -/
def ofProgram (file : Option String) (p : Program) : Declared :=
  let (d, types) := addTypes file { table := TypeTable.withBuiltins {} } p.types
  let d := addSchemas file d types
  let d := addGlobals file d p.globals
  addFunctions file d p.functions

end Declared

/-- The member around the expressions of a declared member. -/
def ContainingMember.ofDecl (m : MemberDecl) : ContainingMember :=
  match m.kind with
  | .method => { kind := .method, name := m.name }
  | .localFunction => { kind := .localFunction, name := m.name }
  | .field => { kind := .field, name := m.name }
  | .const => { kind := .field, name := m.name, isConst := true }
  | .param => { kind := .parameter, name := m.name }
  | .script => { kind := .namedType, name := m.name, isScriptClass := true }
  | .type => { kind := .namedType, name := m.name }

/-- A member whose body has been bound, with the diagnostics of its own expressions. -/
structure BoundMember where
  member : ContainingMember
  exprs : List BoundExpr
  locals : List BoundMember
  diagnostics : List Diagnostic

namespace BoundMember

mutual

/-- The expressions of a member, then those of its local functions. -/
def allExprs : BoundMember → List BoundExpr
  | ⟨_, exprs, locals, _⟩ => exprs ++ allExprsOf locals

/-- The expressions of members in turn. -/
def allExprsOf : List BoundMember → List BoundExpr
  | [] => []
  | m :: ms => allExprs m ++ allExprsOf ms

end

mutual

/-- The diagnostics of a member, then those of its local functions. -/
def allDiagnostics : BoundMember → List Diagnostic
  | ⟨_, _, locals, diagnostics⟩ => diagnostics ++ allDiagnosticsOf locals

/-- The diagnostics of members in turn. -/
def allDiagnosticsOf : List BoundMember → List Diagnostic
  | [] => []
  | m :: ms => allDiagnostics m ++ allDiagnosticsOf ms

end

mutual

/-- The creations in a member, each with the member in whose own body it stands: those of its own
expressions, then those of its local functions. -/
def creations : BoundMember → List (ContainingMember × BoundExpr)
  | ⟨member, exprs, locals, _⟩ =>
    ((BoundExpr.walkAll exprs).filter (·.isCreation)).map (member, ·) ++ creationsOf locals

/-- The creations in members in turn. -/
def creationsOf : List BoundMember → List (ContainingMember × BoundExpr)
  | [] => []
  | m :: ms => creations m ++ creationsOf ms

end

end BoundMember

namespace Compilation

/-- The compilation of a program. -/
def ofProgram (p : Program) (nullable : Option Bool) (file : Option String) : Compilation :=
  let d := Declared.ofProgram file p
  { program := p, file := file, nullable := nullable, table := d.table, symbols := d.symbols
    problems := d.problems }

/-- The store before any member is bound. -/
def store (c : Compilation) : Store :=
  { table := c.table }

/-- What the expressions inside a member are bound against. -/
def context (c : Compilation) (member : Option ContainingMember) : Context :=
  { symbols := c.symbols, member := member, nullable := c.nullable, file := c.file }

/-- Binds expressions in order, with the diagnostics of all of them as part of the result. -/
def bindBody (ctx : Context) (exprs : List Syntax.Expr) :
    Action (List BoundExpr × List Diagnostic) :=
  fun s =>
    let o := ctx.bindExprs none exprs s
    ⟨o.result.map (·, o.diagnostics), o.store, o.diagnostics, o.events⟩

mutual

/-- Binds the expressions of a member, then its local functions. -/
def bindMember (c : Compilation) : MemberDecl → Action BoundMember
  | ⟨position, kind, name, exprs, locals⟩ => do
    let member := ContainingMember.ofDecl ⟨position, kind, name, exprs, locals⟩
    Action.note (.binding member)
    let (exprs, diagnostics) ← bindBody (c.context (some member)) exprs
    let locals ← bindMembers c locals
    pure ⟨member, exprs, locals, diagnostics⟩

/-- Binds members in order. -/
def bindMembers (c : Compilation) : List MemberDecl → Action (List BoundMember)
  | [] => pure []
  | m :: ms => do
    let bound ← bindMember c m
    let others ← bindMembers c ms
    pure (bound :: others)

end

/-- Binds every member of the program. -/
def bindAll (c : Compilation) : Outcome (List BoundMember) :=
  c.bindMembers c.program.members c.store

end Compilation

end AnonymousObjects
