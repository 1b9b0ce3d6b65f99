import AnonymousObjects.Compilation
import AnonymousObjects.Proofs.Compilation.Naming

/-!
# What is reported about declarations

`Declared.reports` lists what there is to report about a program, in order: each declaration of a
name that is taken, and each reference to no type in a declaration that counts.
`reports_eq_nil_iff` says when this is nothing.
-/

namespace AnonymousObjects

open Syntax (FieldDecl FunctionDecl GlobalDecl Program TypeDecl TypeRef)

/-- The names that types have without being declared. -/
def builtinNames : List String :=
  Builtin.all.map (·.name)

/-- The names of types, builtin or declared anywhere in the program. -/
def Syntax.Program.typeNames (p : Program) : List String :=
  builtinNames ++ p.types.map (·.name)

/-- The references to types in the signature of a function. -/
def Syntax.FunctionDecl.typeRefs (f : FunctionDecl) : List TypeRef :=
  f.params.map (·.type) ++ [f.result]

/-- Every reference to a type in the program. -/
def Syntax.Program.typeRefs (p : Program) : List TypeRef :=
  p.types.flatMap (·.fields.map (·.type)) ++ p.globals.map (·.type) ++
    p.functions.flatMap (·.typeRefs)

namespace Declared

variable {file : Option String}

/-- A problem with a declaration, as it is reported. -/
def complaint (file : Option String) (p : Problem) (position : Position) : Diagnostic :=
  .ofProblem "declare" p (.ofPosition file (some position))

/-- The report about a second declaration of a name. -/
def duplicateReport (file : Option String) (name : String) (position : Position) : Diagnostic :=
  complaint file (.duplicateDeclaration name) position

/-- The report about a reference, which is one if it is to none of the names of types. -/
def unknownReports (file : Option String) (names : List String) (r : TypeRef) : List Diagnostic :=
  if r.name ∈ names then []
  else [complaint file (.unknownType (Text.ofString r.name)) r.position]

/-- A reference is not reported where its name is known. -/
theorem unknownReports_eq_nil_iff {names : List String} {r : TypeRef} :
    unknownReports file names r = [] ↔ r.name ∈ names := by
  simp [unknownReports]

section Reports

variable (file : Option String) (names : List String)

/-- The reports about types: one for each declaration of a name that is taken. -/
def typeReports : List String → List TypeDecl → List Diagnostic :=
  eachNamed (·.name) (fun _ => []) fun t => [duplicateReport file t.name t.position]

/-- The reports about the fields of a type: about the references of those that count, and one for
each other. -/
def fieldReports (owner : String) : List String → List FieldDecl → List Diagnostic :=
  eachNamed (·.name) (fun f => unknownReports file names f.type)
    fun f => [duplicateReport file (owner ++ "." ++ f.name) f.position]

/-- The reports about globals, where some names are taken. -/
def globalReports : List String → List GlobalDecl → List Diagnostic :=
  eachNamed (·.name) (fun g => unknownReports file names g.type)
    fun g => [duplicateReport file g.name g.position]

/-- The reports about functions, where some names are taken. -/
def functionReports : List String → List FunctionDecl → List Diagnostic :=
  eachNamed (·.name) (fun f => f.typeRefs.flatMap (unknownReports file names))
    fun f => [duplicateReport file f.name f.position]

/-- The reports about a program: about its types, the fields of those that count, its globals, and
its functions. -/
def reports (p : Program) : List Diagnostic :=
  typeReports file builtinNames p.types ++
    ((kept (·.name) builtinNames p.types).flatMap fun t =>
      fieldReports file p.typeNames t.name [] t.fields) ++
    globalReports file p.typeNames [] p.globals ++
    functionReports file p.typeNames (p.globals.map (·.name)) p.functions

/-- The reports about declarations of a program that are dropped, one for each. -/
def duplicateReports (p : Program) : List Diagnostic :=
  (dropped (·.name) builtinNames p.types).map (fun t => duplicateReport file t.name t.position) ++
    ((kept (·.name) builtinNames p.types).flatMap fun t =>
      (dropped (·.name) [] t.fields).map fun f =>
        duplicateReport file (t.name ++ "." ++ f.name) f.position) ++
    (dropped (·.name) [] p.globals).map (fun g => duplicateReport file g.name g.position) ++
    (dropped (·.name) (p.globals.map (·.name)) p.functions).map fun f =>
      duplicateReport file f.name f.position

end Reports

/-- The references to types in declarations of a program that are kept. -/
def keptRefs (p : Program) : List TypeRef :=
  ((kept (·.name) builtinNames p.types).flatMap fun t =>
      (kept (·.name) [] t.fields).map (·.type)) ++
    (kept (·.name) [] p.globals).map (·.type) ++
    (kept (·.name) (p.globals.map (·.name)) p.functions).flatMap (·.typeRefs)

/-- There is one report for each declaration that is dropped and one for each reference in the
others that is to no type. -/
theorem reports_perm (file : Option String) (p : Program) :
    (reports file p).Perm
      (duplicateReports file p ++ (keptRefs p).flatMap (unknownReports file p.typeNames)) := by
  have htypes : (typeReports file builtinNames p.types).Perm
      ((dropped (·.name) builtinNames p.types).map fun t =>
        duplicateReport file t.name t.position) := by
    refine (eachNamed_perm _ _ _ _ _).trans (.of_eq ?_)
    rw [List.flatMap_eq_nil_iff.mpr fun _ _ => rfl, List.append_nil]
  have hfields : ((kept (·.name) builtinNames p.types).flatMap fun t =>
        fieldReports file p.typeNames t.name [] t.fields).Perm
      (((kept (·.name) builtinNames p.types).flatMap fun t =>
          (dropped (·.name) [] t.fields).map fun f =>
            duplicateReport file (t.name ++ "." ++ f.name) f.position) ++
        (kept (·.name) builtinNames p.types).flatMap fun t =>
          (kept (·.name) [] t.fields).flatMap fun f => unknownReports file p.typeNames f.type) :=
    (List.Perm.flatMap_left _ fun t _ => eachNamed_perm _ _ _ _ _).trans
      (List.flatMap_append_perm _ _ _).symm
  have hglobals := eachNamed_perm (·.name) (fun g => unknownReports file p.typeNames g.type)
    (fun g => duplicateReport file g.name g.position) [] p.globals
  have hfunctions := eachNamed_perm (·.name)
    (fun f => f.typeRefs.flatMap (unknownReports file p.typeNames))
    (fun f => duplicateReport file f.name f.position) (p.globals.map (·.name)) p.functions
  refine (((htypes.append hfields).append hglobals).append hfunctions).trans ?_
  -- The parts are the same on both sides, in another order.
  simp only [duplicateReports, keptRefs, List.flatMap_append, List.flatMap_map, List.flatMap_assoc]
  exact List.perm_iff_count.mpr fun d => by
    simp only [List.count_append]
    omega

/-! ## Programs without mistakes -/

section Clean

variable {names taken : List String}

/-- Types are not reported where their names are different and not taken. -/
theorem typeReports_eq_nil_iff {ts : List TypeDecl} :
    typeReports file taken ts = [] ↔ (ts.map (·.name)).Nodup ∧ ∀ t ∈ ts, t.name ∉ taken := by
  rw [typeReports, eachNamed_eq_nil_iff (by simp)]
  simp

/-- Fields are not reported where their names are different and their types are known. -/
theorem fieldReports_eq_nil_iff {owner : String} {fs : List FieldDecl} :
    fieldReports file names owner [] fs = [] ↔
      (fs.map (·.name)).Nodup ∧ ∀ f ∈ fs, f.type.name ∈ names := by
  rw [fieldReports, eachNamed_eq_nil_iff (by simp)]
  simp [unknownReports_eq_nil_iff]

/-- Globals are not reported where their names are different and their types are known. -/
theorem globalReports_eq_nil_iff {gs : List GlobalDecl} :
    globalReports file names [] gs = [] ↔
      (gs.map (·.name)).Nodup ∧ ∀ g ∈ gs, g.type.name ∈ names := by
  rw [globalReports, eachNamed_eq_nil_iff (by simp)]
  simp [unknownReports_eq_nil_iff]

/-- Functions are not reported where their names are different and not taken and the types in them
are known. -/
theorem functionReports_eq_nil_iff {fs : List FunctionDecl} :
    functionReports file names taken fs = [] ↔
      (fs.map (·.name)).Nodup ∧ (∀ f ∈ fs, f.name ∉ taken) ∧
        ∀ f ∈ fs, ∀ r ∈ f.typeRefs, r.name ∈ names := by
  rw [functionReports, eachNamed_eq_nil_iff (by simp)]
  simp [unknownReports_eq_nil_iff]

/-- Nothing is reported about a program in which names are different where they have to be and every
reference is to a type. -/
theorem reports_eq_nil_iff {p : Program} :
    reports file p = [] ↔
      (p.types.map (·.name)).Nodup ∧ (∀ t ∈ p.types, t.name ∉ builtinNames) ∧
        (∀ t ∈ p.types, (t.fields.map (·.name)).Nodup) ∧
        (p.globals.map (·.name) ++ p.functions.map (·.name)).Nodup ∧
        ∀ r ∈ p.typeRefs, r.name ∈ p.typeNames := by
  have hrefs : (∀ r ∈ p.typeRefs, r.name ∈ p.typeNames) ↔
      (∀ t ∈ p.types, ∀ f ∈ t.fields, f.type.name ∈ p.typeNames) ∧
        (∀ g ∈ p.globals, g.type.name ∈ p.typeNames) ∧
        ∀ f ∈ p.functions, ∀ r ∈ f.typeRefs, r.name ∈ p.typeNames := by
    simp only [Program.typeRefs, List.forall_mem_append, List.forall_mem_flatMap,
      List.forall_mem_map, and_assoc]
  rw [reports, List.append_eq_nil_iff, List.append_eq_nil_iff, List.append_eq_nil_iff,
    typeReports_eq_nil_iff, globalReports_eq_nil_iff, functionReports_eq_nil_iff, hrefs,
    List.nodup_append]
  -- If the types are all right, all of them are kept, and the reports about fields are about all.
  constructor
  · rintro ⟨⟨⟨⟨htypes, hfree⟩, hfields⟩, hglobals, hglobalRefs⟩, hfunctions, hapart, hfunctionRefs⟩
    rw [kept_eq_self htypes hfree, List.flatMap_eq_nil_iff] at hfields
    have hclean := fun t ht => fieldReports_eq_nil_iff.mp (hfields t ht)
    refine ⟨htypes, hfree, fun t ht => (hclean t ht).1, ⟨hglobals, hfunctions, ?_⟩,
      fun t ht => (hclean t ht).2, hglobalRefs, hfunctionRefs⟩
    rintro n hn m hm rfl
    obtain ⟨f, hf, rfl⟩ := List.mem_map.mp hm
    exact hapart f hf hn
  · rintro ⟨htypes, hfree, hfields, ⟨hglobals, hfunctions, hapart⟩, hfieldRefs, hglobalRefs,
      hfunctionRefs⟩
    rw [kept_eq_self htypes hfree, List.flatMap_eq_nil_iff]
    refine ⟨⟨⟨⟨htypes, hfree⟩, fun t ht => ?_⟩, hglobals, hglobalRefs⟩, hfunctions, ?_,
      hfunctionRefs⟩
    · exact fieldReports_eq_nil_iff.mpr ⟨hfields t ht, hfieldRefs t ht⟩
    · intro f hf hmem
      exact hapart _ hmem _ (List.mem_map_of_mem hf) rfl

end Clean

end Declared

end AnonymousObjects
