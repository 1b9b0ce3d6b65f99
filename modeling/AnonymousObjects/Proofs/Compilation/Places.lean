import AnonymousObjects.Proofs.Compilation.Members
import AnonymousObjects.Proofs.Syntax.Locations

/-!
# What the binder reports

Whatever is reported about an expression is one of the problems that there are, at a position in the
expression. There is a lemma for each rule, and `Binds.reportsAt` is the induction over them.
-/

namespace AnonymousObjects

open Syntax (Expr Initializer MemberDecl Name)

/-! ## Positions in expressions -/

namespace Syntax

variable {d e : Expr} {q : Option Position}

namespace Expr

/-- An expression has its own positions. -/
theorem HasPosition.own (h : q ∈ e.ownPositions) : e.HasPosition q :=
  ⟨e, .refl, h⟩

/-- An expression has the positions of its parts. -/
theorem HasPosition.of_part (h : d.HasPosition q) (hd : d ∈ e.parts) : e.HasPosition q := by
  obtain ⟨c, hc, hq⟩ := h
  exact ⟨c, hc.tail hd, hq⟩

/-- An expression has the positions of what is within it. -/
theorem HasPosition.of_within (h : d.HasPosition q) (hd : d.Within e) : e.HasPosition q := by
  obtain ⟨c, hc, hq⟩ := h
  exact ⟨c, hc.trans hd, hq⟩

/-- An expression has the position where it starts. -/
theorem hasPosition_position (e : Expr) : e.HasPosition e.position := by
  refine .own ?_
  cases e <;> exact List.mem_cons_self

/-- The name that an expression lends stands in it. -/
theorem hasPosition_lentName {name : Name} : ∀ {e : Expr}, e.lentName = some name →
    e.HasPosition name.position
  | identifier _, rfl => .own List.mem_cons_self
  | memberAccess _ _ _, rfl | qualifiedName _ _ _, rfl | memberBinding _ _, rfl =>
    .own (List.mem_cons_of_mem _ List.mem_cons_self)
  | conditionalAccess _ _ access, h =>
    (hasPosition_lentName (e := access) h).of_part (by simp [parts])

end Expr

/-- A position stands in an initializer, in its label or in its value. -/
def Initializer.HasPosition (init : Initializer Expr) (q : Option Position) : Prop :=
  q ∈ init.position :: init.label.toList.map (·.position) ∨ init.value.HasPosition q

/-- A creation has the positions of its initializers. -/
theorem Initializer.HasPosition.of_mem {init : Initializer Expr} {inits : List (Initializer Expr)}
    (h : init.HasPosition q) (hinit : init ∈ inits) (p new : Option Position) :
    (Expr.creation p new inits).HasPosition q := by
  rcases h with h | h
  · refine .own (List.mem_cons_of_mem _ (List.mem_cons_of_mem _ ?_))
    exact List.mem_flatMap.mpr ⟨init, hinit, h⟩
  · exact h.of_part (by simpa [Expr.parts] using ⟨init, hinit, rfl⟩)

end Syntax

/-! ## Reports -/

/-- `d.ReportedAt phase file place` says that `d` is the report of a problem, at one of some
positions in a file. -/
def Diagnostic.ReportedAt (d : Diagnostic) (phase : String) (file : Option String)
    (place : Option Position → Prop) : Prop :=
  ∃ problem q, place q ∧ d = .ofProblem phase problem (.ofPosition file q)

/-- A report at one of some positions is at one of more. -/
theorem Diagnostic.ReportedAt.imp {d : Diagnostic} {phase : String} {file : Option String}
    {place place' : Option Position → Prop} (h : d.ReportedAt phase file place)
    (hplace : ∀ q, place q → place' q) : d.ReportedAt phase file place' := by
  obtain ⟨problem, q, hq, hd⟩ := h
  exact ⟨problem, q, hplace q hq, hd⟩

/-- Everything that is reported is a problem at one of some positions. -/
def Context.ReportsAt (ctx : Context) (place : Option Position → Prop) (ds : List Diagnostic) :
    Prop :=
  ∀ d ∈ ds, d.ReportedAt "bind" ctx.file place

namespace Context.ReportsAt

variable {ctx : Context} {place place' : Option Position → Prop} {ds ds' : List Diagnostic}

/-- No reports are anywhere. -/
theorem nil : ctx.ReportsAt place [] := by
  simp [ReportsAt]

/-- A report is at the position of its span. -/
theorem single {problem : Problem} {span : Span} {q : Option Position} (hspan : span = ctx.span q)
    (hq : place q) : ctx.ReportsAt place [.ofProblem "bind" problem span] := by
  intro d hd
  obtain rfl := List.mem_singleton.mp hd
  exact ⟨problem, q, hq, by rw [hspan]; rfl⟩

/-- Reports are at some positions if the first ones and the others are. -/
theorem append (h : ctx.ReportsAt place ds) (h' : ctx.ReportsAt place ds') :
    ctx.ReportsAt place (ds ++ ds') :=
  List.forall_mem_append.mpr ⟨h, h'⟩

/-- Reports at some positions are at more as well. -/
theorem imp (h : ctx.ReportsAt place ds) (hplace : ∀ q, place q → place' q) :
    ctx.ReportsAt place' ds :=
  fun d hd => (h d hd).imp hplace

/-- What is reported at a single position is reported where that is. -/
theorem at_position {q : Option Position} (h : ctx.ReportsAt (· = q) ds) (hq : place q) :
    ctx.ReportsAt place ds :=
  h.imp fun _ heq => heq ▸ hq

/-- What is reported in a part of an expression is reported in the expression. -/
theorem of_part {d e : Expr} (h : ctx.ReportsAt d.HasPosition ds) (hd : d ∈ e.parts) :
    ctx.ReportsAt e.HasPosition ds :=
  h.imp fun _ hq => hq.of_part hd

end Context.ReportsAt

open Context (ReportsAt)

section

variable {ctx : Context} {t : TypeTable} {s s' : Store} {b : BoundExpr} {ds : List Diagnostic}
  {init : Initializer Expr} {name : Name}

/-- A name is reported at its own position. -/
theorem NameRule.reportsAt (h : NameRule ctx t name b ds) :
    ctx.ReportsAt (· = name.position) ds := by
  cases h with
  | global | function => exact .nil
  | typeName | undefined => exact .single rfl rfl

/-- A static field is reported at its name. -/
theorem StaticFieldRule.reportsAt {source : Expr} {owner : TypeId}
    (h : StaticFieldRule ctx t source owner name b ds) : ctx.ReportsAt (· = name.position) ds := by
  cases h with
  | found => exact .nil
  | missing => exact .single rfl rfl

/-- An instance field is reported at its name. -/
theorem InstanceFieldRule.reportsAt {source : Expr} {receiver : BoundExpr}
    (h : InstanceFieldRule ctx t source receiver name b ds) :
    ctx.ReportsAt (· = name.position) ds := by
  cases h with
  | faulty | found => exact .nil
  | missing => exact .single rfl rfl

/-- A path that names no type is reported at its left part. -/
theorem PathRule.reportsAt {left : Expr} {inner : BoundExpr} (h : PathRule ctx left inner ds) :
    ctx.ReportsAt (· = left.position) ds := by
  cases h with
  | faulty => exact .nil
  | unknown => exact .single rfl rfl

/-- A call is reported where it starts. -/
theorem CallRule.reportsAt {source callee : Expr} {target : BoundExpr} {arguments : List BoundExpr}
    (h : CallRule ctx source callee target arguments b ds) :
    ctx.ReportsAt (· = source.position) ds := by
  cases h with
  | faulty | call => exact .nil
  | arity | notInvocable => exact .single rfl rfl

/-- A binary expression is reported where it starts. -/
theorem BinaryRule.reportsAt {source : Expr} {op : String} {left right : BoundExpr}
    (h : BinaryRule ctx source op s left right b s' ds) :
    ctx.ReportsAt (· = source.position) ds := by
  cases h with
  | faulty | sum => exact .nil
  | mistake => exact .single rfl rfl

/-- The type of a field is reported at the position asked for. -/
theorem FieldTypeRule.reportsAt {q : Option Position} {id : TypeId} {faulty : Bool}
    (h : FieldTypeRule s b (ctx.span q) id faulty s' ds) : ctx.ReportsAt (· = q) ds := by
  cases h with
  | faulty | faultyUntyped | usable => exact .nil
  | untyped | void | denied => exact .single rfl rfl

/-- The name of a field is reported at its initializer. -/
theorem FieldNameRule.reportsAt {used : List String} {name : Option Name} {kept : Option String}
    (h : FieldNameRule ctx used init name kept ds) : ctx.ReportsAt (· = init.position) ds := by
  cases h with
  | malformed | kept => exact .nil
  | repeated => exact .single rfl rfl

/-- A field is reported at its initializer. -/
theorem FieldRule.reportsAt {index : Nat} {used : List String} {field : ResolvedField}
    (h : FieldRule ctx index used init s b field s' ds) :
    ctx.ReportsAt (· = init.position) ds := by
  cases h with
  | field _ _ _ _ _ _ _ hname htype _ => exact hname.reportsAt.append htype.reportsAt

/-- A value that lends no name is reported where it starts. -/
theorem Context.reportsAt_declaratorReports (ctx : Context) (init : Initializer Expr) :
    ctx.ReportsAt (· = init.value.position) (ctx.declaratorReports init) := by
  unfold declaratorReports
  split
  · exact .single rfl rfl
  · exact .nil

/-- A creation is reported at its keyword. -/
theorem Context.reportsAt_creationReports (ctx : Context) (new : Option Position) :
    ctx.ReportsAt (· = new) (ctx.creationReports new) := by
  unfold creationReports
  split
  · exact .nil
  · exact .single rfl rfl

end

section

variable {ctx : Context}

mutual

/-- What is reported about an expression is reported at positions in it. -/
theorem Binds.reportsAt {r : Option Receiver} {e : Expr} {s s' : Store} {b : BoundExpr}
    {ds : List Diagnostic} (h : Binds ctx r e s b s' ds) : ctx.ReportsAt e.HasPosition ds := by
  match h with
  | .name _ name _ _ _ hrule =>
      exact hrule.reportsAt.at_position (.own List.mem_cons_self)
  | .staticAccess _ p target name _ _ _ _ _ hrule =>
      exact hrule.reportsAt.at_position (.own (List.mem_cons_of_mem _ List.mem_cons_self))
  | .instanceAccess _ p target name _ _ _ _ _ _ _ hvalue hrule =>
      exact (hvalue.reportsAt.of_part (by simp [Expr.parts])).append
        (hrule.reportsAt.at_position (.own (List.mem_cons_of_mem _ List.mem_cons_self)))
  | .staticPath _ p left right _ _ _ _ _ hrule =>
      exact hrule.reportsAt.at_position (.own (List.mem_cons_of_mem _ List.mem_cons_self))
  | .unknownOwner _ p name right _ _ =>
      have hname : (Expr.identifier name).HasPosition name.position := .own List.mem_cons_self
      exact .single rfl (hname.of_part (by simp [Expr.parts]))
  | .longPath _ p left right _ _ _ _ _ _ _ hinner hrule =>
      exact (hinner.reportsAt.of_part (by simp [Expr.parts])).append
        (hrule.reportsAt.at_position (left.hasPosition_position.of_part (by simp [Expr.parts])))
  | .faultyTarget _ p target access _ _ _ _ hbound _ =>
      exact hbound.reportsAt.of_part (by simp [Expr.parts])
  | .badReceiver _ p target access _ _ _ _ _ hbound _ _ _ =>
      exact (hbound.reportsAt.of_part (by simp [Expr.parts])).append
        (.single rfl (.own List.mem_cons_self))
  | .conditionalAccess _ p target access _ _ _ _ _ _ _ _ _ _ hbound _ _ haccess _ =>
      exact (hbound.reportsAt.of_part (by simp [Expr.parts])).append
        (haccess.reportsAt.of_part (by simp [Expr.parts]))
  | .memberBinding _ p name _ _ _ hrule =>
      exact hrule.reportsAt.at_position (.own (List.mem_cons_of_mem _ List.mem_cons_self))
  | .invocation _ p callee arguments _ _ _ _ _ _ _ _ _ htarget hbound hrule =>
      -- Reports on an argument are at positions of the argument, and those are positions of the
      -- call.
      have harguments : ctx.ReportsAt (Expr.invocation p callee arguments).HasPosition _ :=
        hbound.reportsAt.imp fun _ ⟨argument, hmem, hq⟩ =>
          hq.of_part (by simp [Expr.parts, hmem])
      exact ((htarget.reportsAt.of_part (by simp [Expr.parts])).append harguments).append
        (hrule.reportsAt.at_position (.own List.mem_cons_self))
  | .literal .. => exact .nil
  | .binary _ p op left right _ _ _ _ _ _ _ _ _ _ hleft hright hrule =>
      exact ((hleft.reportsAt.of_part (by simp [Expr.parts])).append
        (hright.reportsAt.of_part (by simp [Expr.parts]))).append
        (hrule.reportsAt.at_position (.own List.mem_cons_self))
  | .parenthesized _ p inner _ _ _ _ hinner =>
      exact hinner.reportsAt.of_part (by simp [Expr.parts])
  | .creation _ p new initializers _ _ _ _ _ _ hresolved _ =>
      have hfields : ctx.ReportsAt (Expr.creation p new initializers).HasPosition _ :=
        hresolved.reportsAt.imp fun _ ⟨init, hinit, hq⟩ => hq.of_mem hinit p new
      exact hfields.append ((ctx.reportsAt_creationReports new).at_position
        (.own (List.mem_cons_of_mem _ List.mem_cons_self)))
  | .error .. => exact .nil

/-- What is reported on several expressions is at a position of one of them. -/
theorem BindsAll.reportsAt {r : Option Receiver} {es : List Expr} {s s' : Store}
    {bs : List BoundExpr} {ds : List Diagnostic} (h : BindsAll ctx r es s bs s' ds) :
    ctx.ReportsAt (fun q => ∃ e ∈ es, e.HasPosition q) ds := by
  match h with
  | .nil _ _ => exact .nil
  | .cons _ e es _ _ _ _ _ _ _ hb hbs =>
      exact (hb.reportsAt.imp fun _ hq => ⟨e, List.mem_cons_self, hq⟩).append
        (hbs.reportsAt.imp fun _ ⟨d, hd, hq⟩ => ⟨d, List.mem_cons_of_mem _ hd, hq⟩)

/-- What is reported on fields is at a position of one of the initializers. -/
theorem BindsFields.reportsAt {r : Option Receiver} {index : Nat} {used : List String}
    {inits : List (Initializer Expr)} {s s' : Store} {fields : List ResolvedField}
    {ds : List Diagnostic} (h : BindsFields ctx r index used inits s fields s' ds) :
    ctx.ReportsAt (fun q => ∃ init ∈ inits, init.HasPosition q) ds := by
  match h with
  | .nil _ _ _ _ => exact .nil
  | .cons _ _ _ init rest _ _ _ _ _ _ _ _ _ _ hvalue hfield hothers =>
      have hdeclarator : ctx.ReportsAt init.HasPosition (ctx.declaratorReports init) :=
        (ctx.reportsAt_declaratorReports init).at_position (.inr init.value.hasPosition_position)
      have hown : ctx.ReportsAt init.HasPosition _ :=
        (hdeclarator.append (hvalue.reportsAt.imp fun _ hq => .inr hq)).append
          (hfield.reportsAt.at_position (.inl List.mem_cons_self))
      exact (hown.imp fun _ hq => ⟨init, List.mem_cons_self, hq⟩).append
        (hothers.reportsAt.imp fun _ ⟨i, hi, hq⟩ => ⟨i, List.mem_cons_of_mem _ hi, hq⟩)

end

end

/-! ## Members -/

namespace Compilation

variable {c : Compilation}

mutual

/-- What is reported about a member is reported at positions in its expressions. -/
theorem BindsMember.reportedAt {m : MemberDecl} {s s' : Store} {bound : BoundMember}
    (h : BindsMember c m s bound s') :
    ∀ d ∈ bound.allDiagnostics,
      d.ReportedAt "bind" c.file fun q => ∃ e ∈ m.allExprs, e.HasPosition q := by
  match h with
  | .member _ _ _ _ _ _ _ _ _ _ _ hexprs hlocals =>
      intro d hd
      rcases List.mem_append.mp hd with hd | hd
      · exact (hexprs.reportsAt d hd).imp fun _ ⟨e, he, hq⟩ => ⟨e, List.mem_append_left _ he, hq⟩
      · exact (hlocals.reportedAt d hd).imp fun _ ⟨e, he, hq⟩ => ⟨e, List.mem_append_right _ he, hq⟩

/-- What is reported on members is at a position in one of their expressions. -/
theorem BindsMembers.reportedAt {ms : List MemberDecl} {s s' : Store} {bound : List BoundMember}
    (h : BindsMembers c ms s bound s') :
    ∀ d ∈ BoundMember.allDiagnosticsOf bound,
      d.ReportedAt "bind" c.file fun q => ∃ e ∈ MemberDecl.allExprsOf ms, e.HasPosition q := by
  match h with
  | .nil _ => simp [BoundMember.allDiagnosticsOf]
  | .cons _ _ _ _ _ _ _ hm hms =>
      intro d hd
      rcases List.mem_append.mp hd with hd | hd
      · exact (hm.reportedAt d hd).imp fun _ ⟨e, he, hq⟩ => ⟨e, List.mem_append_left _ he, hq⟩
      · exact (hms.reportedAt d hd).imp fun _ ⟨e, he, hq⟩ => ⟨e, List.mem_append_right _ he, hq⟩

end

end Compilation

end AnonymousObjects
