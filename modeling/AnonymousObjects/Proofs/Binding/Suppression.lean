import AnonymousObjects.Proofs.Binding.CreationReports
import AnonymousObjects.Proofs.Syntax.Postfix
import AnonymousObjects.Text.NameTable

/-!
# Mistakes that follow from others

A mistake is reported where it is made and not again by what stands around it. `Context.needed`
lists the parts that an expression is made of: where one of them has a mistake, the node of the
expression is a mistake that says nothing more (`Binds.of_needed`). A mistake goes up a chain in
this way (`Context.Spine.binds`), and a value with a mistake is not looked at by the field that it
becomes (`BindsFields.reports_eq`). `Context.bindExpr_suppression` says so of what binding yields,
for every tree and every store.
-/

namespace AnonymousObjects.Syntax

/-- The arguments of a call. -/
def Expr.arguments : Expr → List Expr
  | .invocation _ _ arguments => arguments
  | _ => []

/-- Calls among the postfix operations. -/
def Postfix.isCall : Postfix → Bool
  | call _ => true
  | member _ | conditional _ => false

/-- Access to a member. -/
def Postfix.isMember : Postfix → Bool
  | member _ => true
  | conditional _ | call _ => false

end AnonymousObjects.Syntax

namespace AnonymousObjects

open Syntax (Expr Initializer Literal Name Postfix)

namespace Context

/-- The parts that an expression is made of, in the order in which they are bound. The owner of a
static field is none of them, as it is not bound, and neither is a name in front of `::` that is no
type. -/
def needed (ctx : Context) (t : TypeTable) : Expr → List Expr
  | .memberAccess _ target _ => if ctx.typeNamed t target = none then [target] else []
  | .qualifiedName _ left _ =>
    if ctx.typeNamed t left = none ∧ simpleName? left = none then [left] else []
  | .conditionalAccess _ target _ => [target]
  | .invocation _ callee _ => [callee]
  | .binary _ _ left right => [left, right]
  | .identifier _ | .memberBinding _ _ | .literal _ _ | .parenthesized _ _ | .creation _ _ _
  | .error _ _ => []

/-- `Spine ctx t head e` says that `e` is `head` with accesses to members after it, which are
conditional or not, and parentheses around the beginnings of that chain. What follows the first
conditional access may be anything. -/
inductive Spine (ctx : Context) (t : TypeTable) (head : Expr) : Expr → Prop where
  | head : Spine ctx t head head
  | memberAccess (p target name) :
      Spine ctx t head target → ctx.typeNamed t target = none →
      Spine ctx t head (.memberAccess p target name)
  | qualifiedName (p left right) :
      Spine ctx t head left → ctx.typeNamed t left = none → simpleName? left = none →
      Spine ctx t head (.qualifiedName p left right)
  | conditionalAccess (p target access) :
      Spine ctx t head target → Spine ctx t head (.conditionalAccess p target access)
  | parenthesized (p inner) : Spine ctx t head inner → Spine ctx t head (.parenthesized p inner)

/-- What is reported for an initializer, apart from what is reported for its value. -/
def initializerReports (ctx : Context) (earlier : List (Initializer Expr))
    (init : Initializer Expr) (value : Outcome BoundExpr) : List Diagnostic :=
  ctx.declaratorReports init ++ ctx.nameReports earlier init ++ ctx.valueReports init value

end Context

variable {ctx : Context} {r : Option Receiver} {e : Expr} {s s' : Store} {b : BoundExpr}
  {ds : List Diagnostic}

/-! ## Forms of expressions -/

/-- A single expression, bound as a list. -/
theorem Binds.singleton (h : Binds ctx r e s b s' ds) : BindsAll ctx r [e] s [b] s' ds := by
  have hall := BindsAll.cons r e [] s b s' ds [] s' [] h (.nil r s')
  rwa [List.append_nil] at hall

/-- An instance field of a mistaken receiver is bad, without a report. -/
theorem InstanceFieldRule.of_faulty {t : TypeTable} {source : Expr} {receiver : BoundExpr}
    {name : Name} (h : InstanceFieldRule ctx t source receiver name b ds)
    (hfaulty : receiver.hasAnyErrors = true) : b = .bad source [receiver] ∧ ds = [] := by
  cases h with
  | faulty => exact ⟨rfl, rfl⟩
  | found _ _ hclean => simp [hfaulty] at hclean
  | missing _ hclean => simp [hfaulty] at hclean

/-- A path that rests on a mistake is not reported. -/
theorem PathRule.of_faulty {left : Expr} {inner : BoundExpr} (h : PathRule ctx left inner ds)
    (hfaulty : inner.hasAnyErrors = true) : ds = [] := by
  cases h with
  | faulty => rfl
  | unknown hclean => simp [hfaulty] at hclean

/-- A call of something mistaken is bad, without a report. -/
theorem CallRule.of_faulty {source callee : Expr} {target : BoundExpr} {arguments : List BoundExpr}
    (h : CallRule ctx source callee target arguments b ds) (hfaulty : target.hasAnyErrors = true) :
    b = .bad source (target :: arguments) ∧ ds = [] := by
  cases h with
  | faulty => exact ⟨rfl, rfl⟩
  | call _ _ htarget => simp [htarget, BoundExpr.hasAnyErrors] at hfaulty
  | arity _ _ htarget => simp [htarget, BoundExpr.hasAnyErrors] at hfaulty
  | notInvocable hclean => simp [hfaulty] at hclean

/-- A binary expression with a mistaken side is bad, without a report. -/
theorem BinaryRule.of_faulty {source : Expr} {op : String} {left right : BoundExpr}
    (h : BinaryRule ctx source op s left right b s' ds)
    (hfaulty : left.hasAnyErrors = true ∨ right.hasAnyErrors = true) :
    b = .bad source [left, right] ∧ s' = s ∧ ds = [] := by
  cases h with
  | faulty => exact ⟨rfl, rfl, rfl⟩
  | sum _ hleft hright => simp [hleft, hright] at hfaulty
  | mistake _ _ hleft hright => simp [hleft, hright] at hfaulty

/-! ## Expressions -/

/-- `BindsNeeded ctx r e s b s' ds` says that the parts that `e` is made of are bound from `s` on,
and then its arguments, and what becomes of `e` where a part has a mistake: a mistake that keeps all
of them, with no report and no change of its own. -/
def BindsNeeded (ctx : Context) (r : Option Receiver) (e : Expr) (s : Store) (b : BoundExpr)
    (s' : Store) (ds : List Diagnostic) : Prop :=
  ∃ parts t ds₁ arguments u ds₂,
    BindsAll ctx r (ctx.needed s.table e) s parts t ds₁ ∧
      BindsAll ctx r e.arguments t arguments u ds₂ ∧
        ((∃ part ∈ parts, part.hasAnyErrors = true) →
          b = .bad e (parts ++ arguments) ∧ s' = u ∧ ds = ds₁ ++ ds₂)

/-- An expression without parts needs none. -/
theorem BindsNeeded.of_nothing (hneeded : ctx.needed s.table e = []) (hplain : e.arguments = []) :
    BindsNeeded ctx r e s b s' ds :=
  ⟨[], s, [], [], s, [], hneeded ▸ .nil r s, hplain ▸ .nil r s, by simp⟩

/-- An expression of one part needs that part. -/
theorem BindsNeeded.of_part {part : Expr} {bound : BoundExpr} {t : Store} {ds' : List Diagnostic}
    (hneeded : ctx.needed s.table e = [part]) (hplain : e.arguments = [])
    (hpart : Binds ctx r part s bound t ds')
    (hfaulty : bound.hasAnyErrors = true → b = .bad e [bound] ∧ s' = t ∧ ds = ds') :
    BindsNeeded ctx r e s b s' ds :=
  ⟨[bound], t, ds', [], t, [], hneeded ▸ hpart.singleton, hplain ▸ .nil r t, by simpa using hfaulty⟩

/-- What an expression is made of is bound, and a mistake in it is not reported again. -/
theorem Binds.of_needed (h : Binds ctx r e s b s' ds) : BindsNeeded ctx r e s b s' ds := by
  -- Only forms with a part that has to be without mistakes need anything: the rule for a mistaken
  -- part then adds no report, and the other rules contradict the mistake.
  cases h with
  | name => exact .of_nothing rfl rfl
  | staticAccess _ _ _ _ _ _ _ _ howner =>
      exact .of_nothing (by simp [Context.needed, howner]) rfl
  | instanceAccess _ _ _ _ _ value _ _ _ _ howner hvalue hrule =>
      refine .of_part (by simp [Context.needed, howner]) rfl hvalue fun hfaulty => ?_
      obtain ⟨rfl, rfl⟩ := hrule.of_faulty hfaulty
      exact ⟨rfl, rfl, List.append_nil _⟩
  | staticPath _ _ _ _ _ _ _ _ howner =>
      exact .of_nothing (by simp [Context.needed, howner]) rfl
  | unknownOwner => exact .of_nothing (by simp [Context.needed, Context.simpleName?]) rfl
  | longPath _ _ _ _ _ inner _ _ _ howner hlong hinner hrule =>
      refine .of_part (by simp [Context.needed, howner, hlong]) rfl hinner fun hfaulty => ?_
      obtain rfl := hrule.of_faulty hfaulty
      exact ⟨rfl, rfl, List.append_nil _⟩
  | faultyTarget _ _ _ _ _ _ _ _ hbound _ =>
      exact .of_part rfl rfl hbound fun _ => ⟨rfl, rfl, rfl⟩
  | badReceiver _ _ _ _ _ _ _ _ _ hbound hclean =>
      exact .of_part rfl rfl hbound fun hfaulty => by simp [hfaulty] at hclean
  | conditionalAccess _ _ _ _ _ _ _ _ _ _ _ _ _ _ hbound hclean =>
      exact .of_part rfl rfl hbound fun hfaulty => by simp [hfaulty] at hclean
  | memberBinding => exact .of_nothing rfl rfl
  | invocation _ _ _ _ _ target _ ds₁ bound _ ds₂ _ _ htarget hbound hrule =>
      refine ⟨[target], _, ds₁, bound, _, ds₂, htarget.singleton, hbound, fun hfaulty => ?_⟩
      obtain ⟨rfl, rfl⟩ := hrule.of_faulty (by simpa using hfaulty)
      exact ⟨rfl, rfl, List.append_nil _⟩
  | literal => exact .of_nothing rfl rfl
  | binary _ _ _ _ _ _ left _ ds₁ right t ds₂ _ _ _ hleft hright hrule =>
      refine ⟨[left, right], t, ds₁ ++ ds₂, [], t, [], ?_, .nil r t, fun hfaulty => ?_⟩
      · exact .cons _ _ _ _ _ _ _ _ _ _ hleft hright.singleton
      · obtain ⟨rfl, rfl, rfl⟩ := hrule.of_faulty (by simpa using hfaulty)
        exact ⟨rfl, rfl, rfl⟩
  | parenthesized => exact .of_nothing rfl rfl
  | creation => exact .of_nothing rfl rfl
  | error => exact .of_nothing rfl rfl

/-! ## Chains -/

/-- A mistake in the head of a chain is one in the chain, and nothing else is reported. -/
theorem Context.Spine.binds {head : Expr} (h : ctx.Spine s.table head e)
    (hhead : Binds ctx r head s b s' ds) (hfaulty : b.hasAnyErrors = true) :
    ∃ node, Binds ctx r e s node s' ds ∧ node.hasAnyErrors = true := by
  induction h with
  | head => exact ⟨b, hhead, hfaulty⟩
  | memberAccess p target name _ howner ih =>
      obtain ⟨node, hnode, hmistake⟩ := ih
      refine ⟨.bad (.memberAccess p target name) [node], ?_, rfl⟩
      rw [← List.append_nil ds]
      exact .instanceAccess r p target name s node s' ds _ [] howner hnode (.faulty hmistake)
  | qualifiedName p left right _ howner hlong ih =>
      obtain ⟨node, hnode, hmistake⟩ := ih
      refine ⟨.bad (.qualifiedName p left right) [node], ?_, rfl⟩
      rw [← List.append_nil ds]
      exact .longPath r p left right s node s' ds [] howner hlong hnode (.faulty hmistake)
  | conditionalAccess p target access _ ih =>
      obtain ⟨node, hnode, hmistake⟩ := ih
      exact ⟨_, .faultyTarget r p target access s node s' ds hnode hmistake, rfl⟩
  | parenthesized p inner _ ih =>
      obtain ⟨node, hnode, hmistake⟩ := ih
      exact ⟨node, .parenthesized r p inner s node s' ds hnode, hmistake⟩

/-- Postfix operations without calls make a chain. The induction is on the operations, with the
chain so far as the head of the rest of it. -/
theorem Context.Spine.chain {t : TypeTable} {head target : Expr} (ops : List Postfix)
    (h : ctx.Spine t head target) (hplain : ∀ op ∈ ops, op.isCall = false)
    (hbound : (∃ op ∈ ops.head?, op.isMember = true) → ctx.typeNamed t target = none) :
    ctx.Spine t head (target.chain ops) := by
  induction ops generalizing target with
  | nil => exact h
  | cons op rest ih =>
      obtain ⟨hop, hrest⟩ := List.forall_mem_cons.mp hplain
      cases op with
      | member name =>
          have howner := hbound ⟨_, rfl, rfl⟩
          exact ih (.memberAccess target.position target name h howner) hrest fun _ => rfl
      | conditional name => exact .conditionalAccess _ _ _ h
      | call => cases hop

/-! ## Initializers -/

/-- What is reported for initializers, whatever their names are. -/
theorem BindsFields.reports_eq {index : Nat} {used : List String}
    (before : List (Initializer Expr)) {inits : List (Initializer Expr)}
    {fields : List ResolvedField}
    (hused : ∀ x, x ∈ used ↔ x ∈ fieldNames before)
    (h : BindsFields ctx r index used inits s fields s' ds) :
    ds = inits.zipIdx.flatMap fun x =>
      ctx.declaratorReports x.1 ++ (ctx.outcomeAt r index used inits s x).diagnostics ++
        ctx.nameReports (before ++ inits.take x.2) x.1 ++
          ctx.valueReports x.1 (ctx.outcomeAt r index used inits s x) := by
  induction inits generalizing index used before s fields ds with
  | nil =>
      cases h
      rfl
  | cons init rest ih =>
      cases h with
      | cons _ _ _ _ _ _ value s₁ ds₁ field s₂ ds₂ others _ ds₃ hvalue hfield hothers =>
          obtain ⟨hresult, hstore, hdiagnostics⟩ := (Context.yields_of_binds hvalue).eq
          have hused' := mem_append_nameAfter hused init
          rw [← hfield.fieldOf.name] at hused'
          have hrest := ih (before ++ [init]) (by simpa [fieldNames] using hused') hothers
          rw [List.zipIdx_cons, List.flatMap_cons, List.zipIdx_succ, List.flatMap_map, hrest,
            ctx.outcomeAt_zero, hdiagnostics, hfield.reports_eq hused hresult hstore]
          simp [BindsFields.outcomeAt_succ hvalue hfield hothers]

/-- Nothing is said about a value with a mistake. -/
theorem Context.valueReports_of_faulty {init : Initializer Expr} {value : Outcome BoundExpr}
    (hresult : value.result = .ok b) (hfaulty : b.hasAnyErrors = true) :
    ctx.valueReports init value = [] := by
  simp [valueReports, hresult, BoundExpr.unusable?, hfaulty]

/-- Among the reports for an initializer itself only one is about the type of its value. -/
theorem Context.code_of_initializerReports {earlier : List (Initializer Expr)}
    {init : Initializer Expr} {value : Outcome BoundExpr} (h : ctx.valueReports init value = []) :
    ∀ d ∈ ctx.initializerReports earlier init value, d.code ≠ some .badPropertyValueType := by
  intro d hd
  simp only [initializerReports, h, List.append_nil, List.mem_append] at hd
  rcases hd with hd | hd
  · unfold declaratorReports at hd
    split at hd
    · simp [List.mem_singleton.mp hd, mistake, Diagnostic.ofProblem, Problem.code]
    · cases hd
  · unfold nameReports at hd
    split at hd
    · split at hd
      · simp [List.mem_singleton.mp hd, mistake, Diagnostic.ofProblem, Problem.code]
      · cases hd
    · cases hd

/-! ## Binding -/

/-- A mistake is reported once. Where something that an expression is made of has a mistake, the
expression becomes a mistake that keeps all that was bound for it, and what is reported is what was
reported for its parts and arguments; a chain of postfix operations without calls is as mistaken as
its head and reports what the head does; and among what is reported for an initializer whose value
has a mistake, apart from what is reported for that value, nothing is said about its type. -/
theorem Context.bindExpr_suppression (ctx : Context) (r : Option Receiver) (s : Store) :
    (∀ e b s' ds, (ctx.bindExpr r e).Yields s b s' ds →
      ∃ parts t ds₁ arguments u ds₂,
        (ctx.bindExprs r (ctx.needed s.table e)).Yields s parts t ds₁ ∧
          (ctx.bindExprs r e.arguments).Yields t arguments u ds₂ ∧
            ((∃ part ∈ parts, part.hasAnyErrors = true) →
              b = .bad e (parts ++ arguments) ∧ s' = u ∧ ds = ds₁ ++ ds₂)) ∧
      (∀ head e b s' ds, ctx.Spine s.table head e →
        (ctx.bindExpr r head).Yields s b s' ds → b.hasAnyErrors = true →
          ∃ node, (ctx.bindExpr r e).Yields s node s' ds ∧ node.hasAnyErrors = true) ∧
      (∀ (head : Expr) (ops : List Postfix), (∀ op ∈ ops, op.isCall = false) →
        ((∃ op ∈ ops.head?, op.isMember = true) → ctx.typeNamed s.table head = none) →
          ctx.Spine s.table head (head.chain ops)) ∧
      ∀ p new inits b s' ds, (ctx.bindExpr r (.creation p new inits)).Yields s b s' ds →
        let value := ctx.outcomeAt r 0 [] inits s
        ds = (inits.zipIdx.flatMap fun x =>
            ctx.declaratorReports x.1 ++ (value x).diagnostics ++
              ctx.nameReports (inits.take x.2) x.1 ++ ctx.valueReports x.1 (value x)) ++
            ctx.creationReports new ∧
          ∀ x ∈ inits.zipIdx, ∀ bound, (value x).result = .ok bound → bound.hasAnyErrors = true →
            ∀ d ∈ ctx.initializerReports (inits.take x.2) x.1 (value x),
              d.code ≠ some .badPropertyValueType := by
  refine ⟨fun e b s' ds h => ?_, fun head e b s' ds hspine h hfaulty => ?_,
    fun head ops hplain howner => .chain ops .head hplain howner, fun p new inits b s' ds h => ?_⟩
  · obtain ⟨parts, t, ds₁, arguments, u, ds₂, hparts, harguments, hneeded⟩ :=
      (binds_of_yields h).of_needed
    exact ⟨parts, t, ds₁, arguments, u, ds₂, yieldsAll_of_binds hparts,
      yieldsAll_of_binds harguments, hneeded⟩
  · obtain ⟨node, hnode, hmistake⟩ := hspine.binds (binds_of_yields h) hfaulty
    exact ⟨node, yields_of_binds hnode, hmistake⟩
  · cases binds_of_yields h with
    | creation _ _ _ _ _ _ _ _ _ _ hfields _ =>
        refine ⟨?_, fun x _ bound hresult hfaulty => ?_⟩
        · rw [hfields.reports_eq [] (by simp [fieldNames])]
          simp
        · exact code_of_initializerReports (valueReports_of_faulty hresult hfaulty)

/-- In `a.b?.c` without declarations, only the undefined name is reported. -/
theorem suppression_of_undefined_name :
    let c := Compilation.ofProgram {} none none
    let ctx := c.context none
    let head : Expr := .identifier ⟨"a", some ⟨1, 1⟩⟩
    let ops : List Postfix := [.member ⟨"b", some ⟨1, 3⟩⟩, .conditional ⟨"c", some ⟨1, 6⟩⟩]
    Expr.parse "a.b?.c".toList = .ok (head.chain ops) ∧ c.Reachable c.store ∧
      ∃ node, (ctx.bindExpr none (head.chain ops)).Yields c.store node c.store
          [ctx.mistake (.undefinedName "a") (some ⟨1, 1⟩)] ∧ node.hasAnyErrors = true := by
  intro c ctx head ops
  obtain ⟨-, hspine, hchain, -⟩ := Context.bindExpr_suppression ctx none c.store
  have hhead : (ctx.bindExpr none head).Yields c.store (.bad head []) c.store
      [ctx.mistake (.undefinedName "a") (some ⟨1, 1⟩)] :=
    Context.yields_of_binds (.name _ _ _ _ _ (.undefined rfl rfl rfl))
  have hplain : ∀ op ∈ ops, op.isCall = false := by simp [ops, Postfix.isCall]
  exact ⟨rfl, .refl, hspine head _ _ _ _ (hchain head ops hplain fun _ => rfl) hhead rfl⟩

end AnonymousObjects
