import AnonymousObjects.Compilation
import AnonymousObjects.Proofs.Types.Regularity

/-!
# The table of a program

The declarations of a program work on the type table through four requests: a type is declared or
gets its fields, and pointers and error types are found or created. `DeclarationStep` is one such
request and `ofProgram_reaches` says that they lead from the builtin types to the table of the
program, so whatever each of them keeps holds of that table; `ofProgram_regular` is a case of it.
-/

namespace AnonymousObjects

open Syntax (FieldDecl FunctionDecl GlobalDecl ParamDecl Program TypeDecl TypeRef)

namespace TypeTable

/-- One request to the type table that a declaration makes. -/
inductive DeclarationStep : TypeTable → TypeTable → Prop where
  | declare (t shape name made) :
      shape.isNamed = true → t.declare shape name = .ok made → DeclarationStep t made.2
  | defineFields (t id fields) : DeclarationStep t (t.defineFields id fields)
  | pointerTo (t target made) : t.pointerTo target = .ok made → DeclarationStep t made.2
  | ensureError (t name) : DeclarationStep t (t.ensureError name).2

/-- The second table is reached from the first by any number of declarations. -/
def DeclarationReaches : TypeTable → TypeTable → Prop :=
  Relation.ReflTransGen DeclarationStep

variable {t u : TypeTable}

/-- A declaration keeps a table regular. -/
theorem Regular.declarationStep (h : t.Regular) (hstep : DeclarationStep t u) : u.Regular := by
  cases hstep with
  | declare shape name made hshape hmade => exact h.declare hshape hmade
  | defineFields id fields => exact h.defineFields id fields
  | pointerTo target made hmade => exact h.pointerTo hmade
  | ensureError name => exact h.ensureError name

/-- What declarations reach from a regular table is regular. -/
theorem Regular.declarationReaches (h : t.Regular) (hreach : DeclarationReaches t u) :
    u.Regular := by
  induction hreach with
  | refl => exact h
  | tail _ hstep ih => exact ih.declarationStep hstep

end TypeTable

namespace Declared

open TypeTable

/-- Declaring types takes the steps of declarations. -/
theorem addTypes_reaches (file : Option String) (d : Declared) (ts : List TypeDecl) :
    DeclarationReaches d.table (addTypes file d ts).1.table := by
  induction ts generalizing d with
  | nil => exact .refl
  | cons t ts ih =>
      rw [addTypes]
      split
      · exact ih (d.report file (.duplicateDeclaration t.name) t.position)
      · next id table hok =>
        have hstep : DeclarationStep d.table table := by
          split at hok
          · exact .declare _ _ _ (id, table) rfl hok
          · exact .declare _ _ _ (id, table) rfl hok
          · exact .declare _ _ _ (id, table) rfl hok
        exact .head hstep (ih { d with table := table })

/-- Declaring pointers takes the steps of declarations. -/
theorem addPointers_reaches (t : TypeTable) (id : TypeId) (depth : Nat) :
    DeclarationReaches t (addPointers t id depth).2 := by
  induction depth generalizing t id with
  | zero => exact .refl
  | succ depth ih =>
      rw [addPointers]
      split
      · next target table hok => exact .head (.pointerTo _ _ (target, table) hok) (ih table target)
      · exact .refl

/-- Resolving a reference takes the steps of declarations. -/
theorem resolve_reaches (file : Option String) (d : Declared) (r : TypeRef) :
    DeclarationReaches d.table (d.resolve file r).2.table := by
  unfold resolve
  split
  · exact addPointers_reaches _ _ _
  · exact .single (.ensureError d.table r.name)

/-- Declaring fields takes the steps of declarations. -/
theorem addFields_reaches (file : Option String) (owner : String) (d : Declared)
    (fields : List FieldSchema) (fs : List FieldDecl) :
    DeclarationReaches d.table (addFields file owner d fields fs).1.table := by
  induction fs generalizing d fields with
  | nil => exact .refl
  | cons f fs ih =>
      rw [addFields]
      split
      · exact ih (d.report file (.duplicateDeclaration (owner ++ "." ++ f.name)) f.position) fields
      · exact (resolve_reaches file d f.type).trans (ih (d.resolve file f.type).2 _)

/-- Declaring the fields of types takes the steps of declarations. -/
theorem addSchemas_reaches (file : Option String) (d : Declared)
    (types : List (TypeDecl × TypeId)) :
    DeclarationReaches d.table (addSchemas file d types).table := by
  induction types generalizing d with
  | nil => exact .refl
  | cons p rest ih =>
      obtain ⟨t, id⟩ := p
      rw [addSchemas]
      exact ((addFields_reaches file t.name d [] t.fields).tail (.defineFields _ _ _)).trans
        (ih { (addFields file t.name d [] t.fields).1 with
          table := (addFields file t.name d [] t.fields).1.table.defineFields id
            (addFields file t.name d [] t.fields).2 })

/-- Declaring globals takes the steps of declarations. -/
theorem addGlobals_reaches (file : Option String) (d : Declared) (gs : List GlobalDecl) :
    DeclarationReaches d.table (addGlobals file d gs).table := by
  induction gs generalizing d with
  | nil => exact .refl
  | cons g gs ih =>
      rw [addGlobals]
      split
      · exact ih (d.report file (.duplicateDeclaration g.name) g.position)
      · have htype := resolve_reaches file d g.type
        generalize d.resolve file g.type = made at htype ⊢
        obtain ⟨type, d₁⟩ := made
        exact htype.trans (ih { d₁ with
          symbols := { d₁.symbols with
            globals := d₁.symbols.globals ++
              [⟨g.name, type, .ofPosition file (some g.position)⟩] } })

/-- Resolving parameters takes the steps of declarations. -/
theorem resolveParams_reaches (file : Option String) (d : Declared) (ps : List ParamDecl) :
    DeclarationReaches d.table (resolveParams file d ps).2.table := by
  induction ps generalizing d with
  | nil => exact .refl
  | cons p ps ih =>
      rw [resolveParams]
      exact (resolve_reaches file d p.type).trans (ih (d.resolve file p.type).2)

/-- Declaring functions takes the steps of declarations. -/
theorem addFunctions_reaches (file : Option String) (d : Declared) (fs : List FunctionDecl) :
    DeclarationReaches d.table (addFunctions file d fs).table := by
  induction fs generalizing d with
  | nil => exact .refl
  | cons f fs ih =>
      rw [addFunctions]
      split
      · exact ih (d.report file (.duplicateDeclaration f.name) f.position)
      · have hparams := resolveParams_reaches file d f.params
        generalize resolveParams file d f.params = made at hparams ⊢
        obtain ⟨params, d₁⟩ := made
        have hresult := resolve_reaches file d₁ f.result
        dsimp only at hparams ⊢
        generalize d₁.resolve file f.result = made at hresult ⊢
        obtain ⟨result, d₂⟩ := made
        exact (hparams.trans hresult).trans (ih { d₂ with
          symbols := { d₂.symbols with
            functions := d₂.symbols.functions ++
              [⟨f.name, params, result, .ofPosition file (some f.position)⟩] } })

/-- The table of a program is reached from the builtin types. -/
theorem ofProgram_reaches (file : Option String) (p : Program) :
    DeclarationReaches (withBuiltins {}) (ofProgram file p).table := by
  have htypes := addTypes_reaches file { table := withBuiltins {} } p.types
  have hschemas := addSchemas_reaches file
    (addTypes file { table := withBuiltins {} } p.types).1
    (addTypes file { table := withBuiltins {} } p.types).2
  exact ((htypes.trans hschemas).trans (addGlobals_reaches file _ p.globals)).trans
    (addFunctions_reaches file _ p.functions)

/-- No two types of a program are made alike. -/
theorem ofProgram_regular (file : Option String) (p : Program) :
    (ofProgram file p).table.Regular :=
  Regular.empty.withBuiltins.declarationReaches (ofProgram_reaches file p)

end Declared

end AnonymousObjects
