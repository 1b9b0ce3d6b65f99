import AnonymousObjects.Proofs.Binding.MistakenValues
import AnonymousObjects.Proofs.Compilation.PlacedRuns
import AnonymousObjects.Proofs.Compilation.Places
import AnonymousObjects.Proofs.Compilation.Resolution
import AnonymousObjects.Proofs.Syntax.Documents
import AnonymousObjects.Proofs.Syntax.Lexing
import AnonymousObjects.Text.NameTable

/-!
# Where things are reported

The binder reports problems at positions in the expressions that it binds, and the fields of
creations stand in these as well (`CreatedWithin.standsAt`). Problems with declarations are reported
at positions in the declarations (`Declared.complains_of_reports`). In a program from source text
each of these positions is that of a token, and whatever stands in an expression is located at the
first token of its own text (`bindMembers_locations`).
-/

namespace AnonymousObjects

open Syntax (Expr Initializer MemberDecl Name Program Token Tokens)

/-! ## Fields -/

/-- A span is in a file, at one of some positions. -/
def Span.StandsAt (span : Span) (file : Option String) (place : Option Position → Prop) : Prop :=
  ∃ q, place q ∧ span = .ofPosition file q

/-- A span stands at more positions as well. -/
theorem Span.StandsAt.imp {span : Span} {file : Option String}
    {place place' : Option Position → Prop} (h : span.StandsAt file place)
    (hplace : ∀ q, place q → place' q) : span.StandsAt file place' := by
  obtain ⟨q, hq, hspan⟩ := h
  exact ⟨q, hplace q hq, hspan⟩

/-- A report is at the position of its problem. -/
theorem Diagnostic.ReportedAt.standsAt {d : Diagnostic} {phase : String} {file : Option String}
    {place : Option Position → Prop} (h : d.ReportedAt phase file place) :
    d.span.StandsAt file place := by
  obtain ⟨problem, q, hq, rfl⟩ := h
  exact ⟨q, hq, rfl⟩

section

variable {ctx : Context}

/-- A field stands where its name does, if that is usable, and otherwise where its initializer
does. -/
theorem Syntax.Initializer.hasPosition_namePosition (init : Initializer Expr) :
    init.HasPosition (namePosition init (ResolvedField.shapeOf init).1) := by
  unfold namePosition
  rw [filter_shapeOf]
  cases hname : fieldName? init with
  | none => exact .inl List.mem_cons_self
  | some name =>
    obtain ⟨place, label, value⟩ := init
    have hlent := (Option.filter_eq_some_iff.mp hname).1
    cases label with
    | none => exact .inr (Expr.hasPosition_lentName hlent)
    | some label =>
      obtain rfl := Option.some.inj hlent
      exact .inl (List.mem_cons_of_mem _ List.mem_cons_self)

/-- The span of a resolved field is at a position of its initializer. -/
theorem FieldRule.standsAt {index : Nat} {used : List String} {init : Initializer Expr}
    {s s' : Store} {value : BoundExpr} {field : ResolvedField} {ds : List Diagnostic}
    (h : FieldRule ctx index used init s value field s' ds) :
    field.field.span.StandsAt ctx.file init.HasPosition := by
  cases h with
  | field => exact ⟨_, init.hasPosition_namePosition, rfl⟩

/-- The fields of a creation stand in its initializers. -/
theorem BindsFields.standsAt {r : Option Receiver} {index : Nat} {used : List String}
    {inits : List (Initializer Expr)} {s s' : Store} {fields : List ResolvedField}
    {ds : List Diagnostic} (h : BindsFields ctx r index used inits s fields s' ds) :
    ∀ f ∈ fields, f.field.span.StandsAt ctx.file fun q => ∃ init ∈ inits, init.HasPosition q := by
  induction inits generalizing index used s fields ds with
  | nil =>
      cases h with
      | nil => simp
  | cons init inits ih =>
      cases h with
      | cons _ _ _ _ _ _ _ _ _ _ _ _ _ _ _ _ hfield hothers =>
        intro f hf
        rcases List.mem_cons.mp hf with rfl | hf
        · exact hfield.standsAt.imp fun q hq => ⟨init, List.mem_cons_self, hq⟩
        · refine (ih hothers f hf).imp fun q hq => ?_
          obtain ⟨i, hi, hq⟩ := hq
          exact ⟨i, List.mem_cons_of_mem _ hi, hq⟩

/-- The fields of a creation stand in its expression. -/
theorem CreatedWithin.standsAt {s s' : Store} {b : BoundExpr} (h : CreatedWithin ctx s s' b) :
    ∀ f ∈ b.fields, f.span.StandsAt ctx.file b.source.HasPosition := by
  cases h with
  | creation _ p new _ _ _ _ _ _ _ _ hfields _ _ =>
      intro f hf
      obtain ⟨x, hx, rfl⟩ := List.mem_map.mp hf
      refine (hfields.standsAt x hx).imp fun q hq => ?_
      obtain ⟨init, hinit, hq⟩ := hq
      exact hq.of_mem hinit p new

end

/-! ## Reports about declarations -/

namespace Declared

open Syntax (FieldDecl FunctionDecl GlobalDecl TypeDecl TypeRef)

variable {file : Option String} {names taken : List String} {d : Diagnostic}

/-- A diagnostic is the report of a problem at one of some positions. -/
def Complains (file : Option String) (positions : List Position) (d : Diagnostic) : Prop :=
  ∃ problem, ∃ q ∈ positions, d = complaint file problem q

/-- A report at one of some positions is at one of more. -/
theorem Complains.mono {positions more : List Position} (h : Complains file positions d)
    (hmore : positions ⊆ more) : Complains file more d := by
  obtain ⟨problem, q, hq, hd⟩ := h
  exact ⟨problem, q, hmore hq, hd⟩

/-- A second declaration of a name is reported where it stands. -/
theorem complains_of_duplicate {name : String} {position : Position} {positions : List Position}
    (h : d ∈ [duplicateReport file name position]) (hposition : position ∈ positions) :
    Complains file positions d :=
  ⟨_, position, hposition, List.mem_singleton.mp h⟩

/-- An unknown type is reported where it is referred to. -/
theorem complains_of_unknown {r : TypeRef} {positions : List Position}
    (h : d ∈ unknownReports file names r) (hr : r.position ∈ positions) :
    Complains file positions d := by
  unfold unknownReports at h
  split at h
  · cases h
  · exact ⟨_, r.position, hr, List.mem_singleton.mp h⟩

/-- A report on types is at a position of one of them. -/
theorem complains_of_typeReports {ts : List TypeDecl} (h : d ∈ typeReports file taken ts) :
    ∃ t ∈ ts, Complains file t.positions d := by
  obtain ⟨t, ht, h | h⟩ := exists_of_mem_eachNamed h
  · cases h
  · exact ⟨t, ht, complains_of_duplicate h List.mem_cons_self⟩

/-- A report on fields is at a position in their type. -/
theorem complains_of_fieldReports {t : TypeDecl}
    (h : d ∈ fieldReports file names t.name taken t.fields) : Complains file t.positions d := by
  obtain ⟨f, hf, h⟩ := exists_of_mem_eachNamed h
  have hfield : Complains file [f.position, f.type.position] d := by
    rcases h with h | h
    · exact complains_of_unknown h (by simp)
    · exact complains_of_duplicate h (by simp)
  refine hfield.mono fun q hq => List.mem_cons_of_mem _ ?_
  exact List.mem_flatMap.mpr ⟨f, hf, hq⟩

/-- A report on globals is at a position of one of them. -/
theorem complains_of_globalReports {gs : List GlobalDecl}
    (h : d ∈ globalReports file names taken gs) : ∃ g ∈ gs, Complains file g.positions d := by
  obtain ⟨g, hg, h⟩ := exists_of_mem_eachNamed h
  refine ⟨g, hg, ?_⟩
  rcases h with h | h
  · exact complains_of_unknown h (by simp [GlobalDecl.positions])
  · exact complains_of_duplicate h (by simp [GlobalDecl.positions])

/-- A report on functions is at a position of one of them. -/
theorem complains_of_functionReports {fs : List FunctionDecl}
    (h : d ∈ functionReports file names taken fs) : ∃ f ∈ fs, Complains file f.positions d := by
  obtain ⟨f, hf, h⟩ := exists_of_mem_eachNamed h
  refine ⟨f, hf, ?_⟩
  rcases h with h | h
  · obtain ⟨r, hr, h⟩ := List.mem_flatMap.mp h
    refine complains_of_unknown h ?_
    rcases List.mem_append.mp hr with hr | hr
    · obtain ⟨param, hparam, rfl⟩ := List.mem_map.mp hr
      exact List.mem_cons_of_mem _ (List.mem_cons_of_mem _ (List.mem_map_of_mem hparam))
    · obtain rfl := List.mem_singleton.mp hr
      exact List.mem_cons_of_mem _ List.mem_cons_self
  · exact complains_of_duplicate h List.mem_cons_self

/-- What is reported about the declarations of a program is reported at positions in them. -/
theorem complains_of_reports {p : Program} (h : d ∈ reports file p) :
    Complains file p.declPositions d := by
  simp only [reports, List.mem_append, List.mem_flatMap] at h
  rcases h with ((h | ⟨t, ht, h⟩) | h) | h
  · obtain ⟨t, ht, h⟩ := complains_of_typeReports h
    exact h.mono fun q hq => Program.mem_declPositions.mpr (.inl ⟨t, ht, hq⟩)
  · exact (complains_of_fieldReports h).mono fun q hq =>
      Program.mem_declPositions.mpr (.inl ⟨t, mem_of_mem_kept ht, hq⟩)
  · obtain ⟨g, hg, h⟩ := complains_of_globalReports h
    exact h.mono fun q hq => Program.mem_declPositions.mpr (.inr (.inl ⟨g, hg, hq⟩))
  · obtain ⟨f, hf, h⟩ := complains_of_functionReports h
    exact h.mono fun q hq => Program.mem_declPositions.mpr (.inr (.inr (.inl ⟨f, hf, hq⟩)))

end Declared

/-! ## Programs from source text -/

/-- What a conditional access does begins with the name of a bound member. -/
theorem Syntax.Expr.FromBinding.isSome_boundName {e : Expr} (h : e.FromBinding) :
    e.boundName?.isSome = true := by
  induction h with
  | memberBinding => rfl
  | memberAccess _ _ _ _ ih | invocation _ _ _ _ ih | conditionalAccess _ _ _ _ _ ih => exact ih

namespace Compilation

variable {p : Program} {nullable : Option Bool} {file : Option String}

/-- The fields of creations stand in the expressions that are bound. -/
theorem BindsPlaced.standsAt {xs : List (Option ContainingMember × Expr)} {s s' : Store}
    {bs : List BoundExpr} (h : BindsPlaced (ofProgram p nullable file) xs s bs s')
    (hs : (ofProgram p nullable file).Reachable s) :
    ∀ node ∈ BoundExpr.creationsOf bs, ∀ f ∈ node.fields,
      f.span.StandsAt file fun q => ∃ x ∈ xs, x.2.HasPosition q := by
  intro node hnode f hf
  obtain ⟨x, hx, hsource, hcreated⟩ := h.created hs node hnode
  exact (hcreated.standsAt f hf).imp fun _ hq =>
    ⟨x, hx, hq.of_within (Expr.within_of_mem_creations hsource)⟩

variable {source : List Char}

/-- A span at a position in a program is at a token of the source text. -/
theorem exists_token [Text.CharacterNames] (hp : Program.parse source = .ok p) {span : Span}
    (h : span.StandsAt file p.HasPosition) :
    ∃ t ∈ (Tokens.ofText .program source).list, span = .ofPosition file (some t.position) := by
  obtain ⟨q, hq, hspan⟩ := h
  obtain ⟨t, ht, rfl⟩ := Program.tokenAt hp hq
  exact ⟨t, ht, hspan⟩

/-- Everything is located at tokens of the source text. Every token is written in the text, at its
line and column. Whatever stands in the expressions of a program is located at the first token of
its own text, and what a conditional access does has a text that begins with a bound member. And
whatever is reported about the declarations or about members, and every field of a creation, is in
the given file and at a token. -/
theorem bindMembers_locations [Text.CharacterNames] (hp : Program.parse source = .ok p)
    (nullable : Option Bool)
    (file : Option String) {ms : List MemberDecl} (hms : ∀ m ∈ ms, m ∈ p.members) :
    let tokens := (Tokens.ofText .program source).list
    let c := ofProgram p nullable file
    let run := c.bindMembers ms c.store
    (∀ t ∈ tokens, ∃ before behind, t.StandsIn source before behind) ∧
      (∀ m ∈ p.members, ∀ e ∈ m.allExprs,
        (∀ d : Expr, d.Within e → ∃ t rest, t :: rest <:+: tokens ∧ d.LocatedAt t rest) ∧
          e.EachConditional fun _ access => access.boundName?.isSome = true) ∧
      (∀ d ∈ c.problems ++ run.diagnostics,
        ∃ t ∈ tokens, d.span = .ofPosition file (some t.position)) ∧
      ∃ bound, run.result = .ok bound ∧
        ∀ x ∈ BoundMember.creationsOf bound, ∀ f ∈ x.2.fields,
          ∃ t ∈ tokens, f.span = .ofPosition file (some t.position) := by
  intro tokens c run
  have hreadable := Program.parse_readable hp
  have hstart : c.Reachable c.store := .refl
  obtain ⟨bound, s, hbound⟩ := bindsMembers_total ms (fun m hm => hreadable m (hms m hm)) hstart
  obtain ⟨hresult, -, hdiagnostics⟩ := (yields_of_bindsMembers hbound).eq
  have hexprs : ∀ e ∈ MemberDecl.allExprsOf ms, ∃ m ∈ p.members, e ∈ m.allExprs := by
    intro e he
    obtain ⟨m, hm, he⟩ := MemberDecl.mem_allExprsOf.mp he
    exact ⟨m, hms m hm, he⟩
  refine ⟨Tokens.standsIn (Program.parse_eq_ok_iff.mp hp).1.readable, fun m hm e he => ⟨?_, ?_⟩,
    List.forall_mem_append.mpr ⟨?_, ?_⟩, bound, hresult, ?_⟩
  · exact fun d hd => Program.exists_locatedAt hp hm he hd
  · have hsource : e.FromSource := .member source p m e hp hm he
    exact fun q target access hd => (hsource.bindsFirst q target access hd).isSome_boundName
  · intro d hd
    rw [(represents p nullable file).problems] at hd
    obtain ⟨problem, r, hr, rfl⟩ := Declared.complains_of_reports hd
    exact exists_token hp ⟨some r, .inl ⟨r, hr, rfl⟩, rfl⟩
  · intro d hd
    rw [hdiagnostics] at hd
    refine exists_token hp ((hbound.reportedAt d hd).standsAt.imp fun q hq => .inr ?_)
    obtain ⟨e, he, hq⟩ := hq
    obtain ⟨m, hm, he⟩ := hexprs e he
    exact ⟨m, hm, e, he, hq⟩
  · intro x hx f hf
    have hnode : x.2 ∈ BoundExpr.creationsOf ((BoundMember.placedOf bound).map Prod.snd) :=
      map_snd_creationsOf bound ▸ List.mem_map_of_mem hx
    refine exists_token hp
      ((hbound.placed.standsAt hstart x.2 hnode f hf).imp fun q hq => .inr ?_)
    obtain ⟨y, hy, hq⟩ := hq
    obtain ⟨place, hplace, rfl⟩ := List.mem_map.mp hy
    have hmem : place.2 ∈ MemberDecl.allExprsOf ms :=
      MemberDecl.map_snd_placedOf ms ▸ List.mem_map_of_mem hplace
    obtain ⟨m, hm, he⟩ := hexprs place.2 hmem
    exact ⟨m, hm, place.2, he, hq⟩

/-- A program with four mistakes: a name of no type in the first line, and then, in the fifth, a
value that no field may have, a target in parentheses that no access may have, and a name that
nothing has. -/
theorem bindMembers_locations_of_lines :
    let source := ("let x: T;\nlet p: int*;\nmethod m \x7b\n  new \x7b\n" ++
      "    p, (x)?.y.z, n = (f)\n  \x7d;\n\x7d").toList
    let file := some "lines"
    let tokens := (Tokens.ofText .program source).list
    ∃ p, Program.parse source = .ok p ∧
      let c := ofProgram p none file
      let reports := c.problems ++ (c.bindMembers p.members c.store).diagnostics
      (p.members.flatMap (·.allExprs)).map (·.position) = [some ⟨4, 3⟩] ∧
        (∀ m ∈ p.members, ∀ e ∈ m.allExprs, ∀ d : Expr, d.Within e →
          ∃ t rest, t :: rest <:+: tokens ∧ d.LocatedAt t rest) ∧
        reports.map (·.span) =
          [⟨1, 8⟩, ⟨5, 5⟩, ⟨5, 8⟩, ⟨5, 23⟩].map (fun q => .ofPosition file (some q)) ∧
        ∀ d ∈ reports, ∃ t ∈ tokens, d.span = .ofPosition file (some t.position) := by
  intro source file tokens
  obtain ⟨p, hp, hstart, hspans⟩ : ∃ p, Program.parse source = .ok p ∧
      let c := ofProgram p none file
      (p.members.flatMap (·.allExprs)).map (·.position) = [some ⟨4, 3⟩] ∧
        (c.problems ++ (c.bindMembers p.members c.store).diagnostics).map (·.span) =
          [⟨1, 8⟩, ⟨5, 5⟩, ⟨5, 8⟩, ⟨5, 23⟩].map fun q => .ofPosition file (some q) :=
    ⟨_, rfl, by decide +kernel⟩
  obtain ⟨-, hexprs, hreports, -⟩ := bindMembers_locations hp none file (fun _ hm => hm)
  exact ⟨p, hp, hstart, fun m hm e he => (hexprs m hm e he).1, hspans, hreports⟩

end Compilation

end AnonymousObjects
