import AnonymousObjects.Compilation
import AnonymousObjects.Proofs.Binding.Progress
import AnonymousObjects.Proofs.Syntax.Readings

/-!
# Binding members

`BindsMember c m s bound s'` says that the member `m` is bound to `bound`: binding starts in the
store `s` and leaves `s'`, and its reports are those that `bound` holds. In a reachable store every
member from source text is bound (`bindsMember_total`), and so is a whole program
(`bindAll_total`).
-/

namespace AnonymousObjects.Compilation

open AnonymousObjects.Action
open Syntax (Expr MemberDecl Program)

mutual

/-- `BindsMember c m s bound s'` says that `m` is bound to `bound`. -/
inductive BindsMember (c : Compilation) : MemberDecl → Store → BoundMember → Store → Prop where
  | member (position kind name exprs locals s bs t ds bound s') :
      BindsAll (c.context (some (.ofDecl ⟨position, kind, name, exprs, locals⟩))) none exprs s bs t
        ds →
      BindsMembers c locals t bound s' →
      BindsMember c ⟨position, kind, name, exprs, locals⟩ s
        ⟨.ofDecl ⟨position, kind, name, exprs, locals⟩, bs, bound, ds⟩ s'

/-- `BindsMembers c ms s bound s'` says that the members `ms` are bound to `bound` in order. -/
inductive BindsMembers (c : Compilation) :
    List MemberDecl → Store → List BoundMember → Store → Prop where
  | nil (s) : BindsMembers c [] s [] s
  | cons (m ms s bound t others s') :
      BindsMember c m s bound t → BindsMembers c ms t others s' →
      BindsMembers c (m :: ms) s (bound :: others) s'

end

variable {c : Compilation} {s s' : Store}

/-! ## Runs -/

/-- A body yields the nodes of its expressions and what is reported on them. -/
theorem bindBody_yields {ctx : Context} {exprs : List Expr} {bs : List BoundExpr}
    {ds : List Diagnostic} (h : BindsAll ctx none exprs s bs s' ds) :
    (bindBody ctx exprs).Yields s (bs, ds) s' ds := by
  obtain ⟨es, h⟩ := Context.yieldsAll_of_binds h
  exact ⟨es, by simp [bindBody, h, Except.map]⟩

mutual

/-- A member that is bound is what binding it gives, with the reports that it holds. -/
theorem yields_of_bindsMember {m : MemberDecl} {s s' : Store} {bound : BoundMember}
    (h : BindsMember c m s bound s') : (c.bindMember m).Yields s bound s' bound.allDiagnostics := by
  match h with
  | .member position kind name exprs locals _ bs t ds bound _ hexprs hlocals =>
      rw [bindMember]
      refine yields_note_bind.mpr (yields_bind.mpr ⟨_, t, ds, _, bindBody_yields hexprs, ?_, rfl⟩)
      refine yields_bind.mpr ⟨bound, s', _, [], yields_of_bindsMembers hlocals, ?_, by simp⟩
      exact yields_pure.mpr ⟨rfl, rfl, rfl⟩

/-- Members that are bound by the rules are what binding them yields. -/
theorem yields_of_bindsMembers {ms : List MemberDecl} {s s' : Store} {bound : List BoundMember}
    (h : BindsMembers c ms s bound s') :
    (c.bindMembers ms).Yields s bound s' (BoundMember.allDiagnosticsOf bound) := by
  match h with
  | .nil _ =>
      rw [bindMembers]
      exact yields_pure.mpr ⟨rfl, rfl, rfl⟩
  | .cons m ms _ bound t others _ hm hms =>
      rw [bindMembers]
      refine yields_bind.mpr ⟨bound, t, _, _, yields_of_bindsMember hm, ?_, rfl⟩
      refine yields_bind.mpr ⟨others, s', _, [], yields_of_bindsMembers hms, ?_, by simp⟩
      exact yields_pure.mpr ⟨rfl, rfl, rfl⟩

end

section

variable {m : MemberDecl} {ms : List MemberDecl} {t : Store} {bound bound' : BoundMember}
  {bs bs' : List BoundMember}

/-- From one store a member is bound in one way. -/
theorem BindsMember.unique (h : BindsMember c m s bound s') (h' : BindsMember c m s bound' t) :
    bound' = bound ∧ t = s' := by
  obtain ⟨hbound, hstore, _⟩ := (yields_of_bindsMember h).unique (yields_of_bindsMember h')
  exact ⟨hbound, hstore⟩

/-- Members are bound in one way only. -/
theorem BindsMembers.unique (h : BindsMembers c ms s bs s') (h' : BindsMembers c ms s bs' t) :
    bs' = bs ∧ t = s' := by
  obtain ⟨hbound, hstore, _⟩ := (yields_of_bindsMembers h).unique (yields_of_bindsMembers h')
  exact ⟨hbound, hstore⟩

/-- Binding a member leaves a store that is reached from the one before. -/
theorem BindsMember.reaches (h : BindsMember c m s bound s') : s.Reaches s' :=
  (yields_of_bindsMember h).reaches (bindMember_moves m)

/-- Binding several members leaves a store that is reached from the one before. -/
theorem BindsMembers.reaches (h : BindsMembers c ms s bs s') : s.Reaches s' :=
  (yields_of_bindsMembers h).reaches (bindMembers_moves ms)

/-- There are as many bound members as members. -/
theorem BindsMembers.length_eq (h : BindsMembers c ms s bs s') : bs.length = ms.length := by
  induction ms generalizing s bs with
  | nil =>
      cases h
      rfl
  | cons m ms ih =>
      cases h with
      | cons _ _ _ bound t others _ _ hms => rw [List.length_cons, List.length_cons, ih hms]

end

/-! ## Members from source text -/

variable {p : Program} {nullable : Option Bool} {file : Option String}

/-- What is reached from a reachable store is reachable. -/
theorem Reachable.trans (h : c.Reachable s) (h' : s.Reaches s') : c.Reachable s' :=
  Relation.ReflTransGen.trans h h'

/-- Expressions of a program can be bound in every reachable store. -/
theorem Reachable.bindsAll (h : (ofProgram p nullable file).Reachable s)
    (member : Option ContainingMember) {es : List Expr} (hes : ∀ e ∈ es, e.Readable) :
    ∃ bs s' ds, BindsAll ((ofProgram p nullable file).context member) none es s bs s' ds :=
  bindsAll_total (ofProgram_fits p nullable file member) none es h.sound (by simp [Receiver.Valid])
    fun _ => Syntax.Expr.anyHasStray_iff.mpr fun e he => (hes e he).closed

mutual

/-- In a reachable store every member from source text is bound. -/
theorem bindsMember_total {m : MemberDecl} (hm : m.Readable) {s : Store}
    (hs : (ofProgram p nullable file).Reachable s) :
    ∃ bound s', BindsMember (ofProgram p nullable file) m s bound s' := by
  match hm with
  | .member position kind name exprs locals hexprs hlocals =>
      obtain ⟨bs, t, ds, hbs⟩ := hs.bindsAll
        (some (.ofDecl ⟨position, kind, name, exprs, locals⟩)) hexprs
      obtain ⟨bound, s', hbound⟩ := bindsMembers_total locals hlocals (hs.trans hbs.reaches)
      exact ⟨_, s', .member position kind name exprs locals s bs t ds bound s' hbs hbound⟩

/-- Members of a program can be bound in every reachable store. -/
theorem bindsMembers_total (ms : List MemberDecl) (hms : ∀ m ∈ ms, m.Readable) {s : Store}
    (hs : (ofProgram p nullable file).Reachable s) :
    ∃ bound s', BindsMembers (ofProgram p nullable file) ms s bound s' := by
  cases ms with
  | nil => exact ⟨[], s, .nil s⟩
  | cons m ms =>
      obtain ⟨bound, t, hbound⟩ := bindsMember_total (hms m (by simp)) hs
      obtain ⟨others, s', hothers⟩ := bindsMembers_total ms (fun m hm => hms m (by simp [hm]))
        (hs.trans hbound.reaches)
      exact ⟨_, s', .cons m ms s bound t others s' hbound hothers⟩

end

/-- Every program from source text is bound. -/
theorem bindAll_total (nullable : Option Bool) (file : Option String) (hp : p.Readable) :
    ∃ bound s', BindsMembers (ofProgram p nullable file) p.members
      (ofProgram p nullable file).store bound s' ∧
        (ofProgram p nullable file).bindAll.result = .ok bound ∧
        (ofProgram p nullable file).bindAll.store = s' := by
  obtain ⟨bound, s', h⟩ := bindsMembers_total p.members hp
    (show (ofProgram p nullable file).Reachable _ from .refl)
  obtain ⟨hresult, hstore, _⟩ := (yields_of_bindsMembers h).eq
  exact ⟨bound, s', h, hresult, hstore⟩

end AnonymousObjects.Compilation
