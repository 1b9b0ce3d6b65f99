import AnonymousObjects.Proofs.Compilation.Creations
import AnonymousObjects.Proofs.Compilation.Places
import AnonymousObjects.Proofs.Compilation.Refusals
import AnonymousObjects.Proofs.Syntax.Printing.Numbers
import AnonymousObjects.Text.NameTable

/-!
# Compilations come to an end

Nothing that can stop the compilation of a program happens to one that has been read from a source
text. Its declarations are not refused, every member is bound, in whatever order and however often,
and every message gets its arguments (`Diagnostic.ReportedAt.formatted`). `bindMembers_completes`
puts these together.
-/

namespace AnonymousObjects

open Syntax (MemberDecl Program)

/-! ## Messages -/

/-- `d.Formatted phase` says that `d` was made from a code with an argument for every hole of its
message. -/
def Diagnostic.Formatted (phase : String) (d : Diagnostic) : Prop :=
  ∃ code span arguments, Diagnostic.ofCode phase code span arguments = .ok d

/-- A problem has the arguments of its message. -/
theorem Diagnostic.formatted_ofProblem (phase : String) (p : Problem) (span : Span) :
    (Diagnostic.ofProblem phase p span).Formatted phase :=
  ⟨p.code, span, p.arguments, by rw [ofCode, p.fill_template]; rfl⟩

/-- The report of a problem has the arguments of its message. -/
theorem Diagnostic.ReportedAt.formatted {d : Diagnostic} {phase : String} {file : Option String}
    {place : Option Position → Prop} (h : d.ReportedAt phase file place) : d.Formatted phase := by
  obtain ⟨problem, q, _, rfl⟩ := h
  exact formatted_ofProblem phase problem (.ofPosition file q)

namespace Compilation

/-! ## Programs from source text -/

/-- Compiling a program that has been read comes to an end. No declaration is refused; the members
are bound, one result for each, in any sequence of them, and so are all of them in order; the types
of all creations are there with the members that their fields ask for; and every message has its
arguments, with no number in the program too long to be written in one. -/
theorem bindMembers_completes [Text.CharacterNames] {source : List Char} {p : Program}
    (hp : Program.parse source = .ok p) (file : Option String) (nullable : Option Bool)
    {ms : List MemberDecl} (hms : ∀ m ∈ ms, m ∈ p.members) :
    let c := ofProgram p nullable file
    let run := c.bindMembers ms c.store
    Declared.checked file p = .ok (Declared.ofProgram file p) ∧
      (∃ bound, run.result = .ok bound ∧ bound.length = ms.length ∧
        ∀ x ∈ BoundMember.creationsOf bound, ∃ e new type fields arguments declarations faulty,
          x.2 = .creation e new type fields arguments declarations faulty ∧
            CreationFits nullable run.store type fields) ∧
      (∃ bound, c.bindAll.result = .ok bound) ∧
      (∀ d ∈ run.diagnostics, d.Formatted "bind") ∧
      ∀ m ∈ p.members, ∀ l ∈ m.literals, ∀ n, l.value = .int n →
        (toString n).length ≤ Text.Decimal.digitLimit := by
  intro c run
  have hreadable := Syntax.Program.parse_readable hp
  have hstart : c.Reachable c.store := .refl
  obtain ⟨bound, s, hbound⟩ := bindsMembers_total ms (fun m hm => hreadable m (hms m hm)) hstart
  obtain ⟨hresult, hstore, hdiagnostics⟩ := (yields_of_bindsMembers hbound).eq
  obtain ⟨all, _, _, hall, _⟩ := bindAll_total nullable file hreadable
  refine ⟨Declared.checked_eq file p, ⟨bound, hresult, hbound.length_eq, ?_⟩, ⟨all, hall⟩, ?_,
    Syntax.Program.parse_numbers hp⟩
  · show ∀ x ∈ BoundMember.creationsOf bound, ∃ e new type fields arguments declarations faulty,
      x.2 = .creation e new type fields arguments declarations faulty ∧
        CreationFits nullable (c.bindMembers ms c.store).store type fields
    rw [hstore]
    exact hbound.fits hstart
  · show ∀ d ∈ (c.bindMembers ms c.store).diagnostics, d.Formatted "bind"
    rw [hdiagnostics]
    exact fun d hd => (hbound.reportedAt d hd).formatted

/-- A program whose declarations and members are mistaken in every other way, its member bound
twice. -/
theorem bindMembers_completes_of_mistakes :
    let source := ("class int \x7b \x7d let x: T*; fn f(a: int**): void; " ++
      "method m \x7b new \x7b x?.y, f(1), b = f \x7d; \x7d").toList
    ∃ p m, Program.parse source = .ok p ∧ p.members = [m] ∧
      let c := ofProgram p (some true) none
      let run := c.bindMembers [m, m] c.store
      Declared.checked none p = .ok (Declared.ofProgram none p) ∧
        (∃ bound, run.result = .ok bound ∧ bound.length = 2 ∧
          ∀ x ∈ BoundMember.creationsOf bound, ∃ e new type fields arguments declarations faulty,
            x.2 = .creation e new type fields arguments declarations faulty ∧
              CreationFits (some true) run.store type fields) ∧
        (∃ bound, c.bindAll.result = .ok bound) ∧
        (∀ d ∈ run.diagnostics, d.Formatted "bind") ∧
        ∀ m ∈ p.members, ∀ l ∈ m.literals, ∀ n, l.value = .int n →
          (toString n).length ≤ Text.Decimal.digitLimit := by
  intro source
  obtain ⟨p, hp, m, hm⟩ : ∃ p, Program.parse source = .ok p ∧ ∃ m, p.members = [m] :=
    ⟨_, rfl, _, rfl⟩
  exact ⟨p, m, hp, hm, bindMembers_completes hp none (some true) (by simp [hm])⟩

end Compilation

end AnonymousObjects
