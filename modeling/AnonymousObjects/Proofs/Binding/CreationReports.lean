import AnonymousObjects.Proofs.Binding.Alignment
import AnonymousObjects.Proofs.Binding.Reports
import AnonymousObjects.Proofs.Syntax.Creations
import AnonymousObjects.Text.NameTable

/-!
# What is reported for a creation

The reports of a creation are those of its initializers, in order, and then that of the place it is
in. For an initializer they are that it has no name, what is reported for its value, that its name
is the name of an earlier one, and that the value is none that a field may have.
`bindExpr_creation_reports` says so for every creation in source text, and that the node of the
creation is a mistake if one of them is reported, apart from those for the values.
-/

namespace AnonymousObjects

open Syntax (Expr Initializer Name Program)

/-- The name of an initializer: that in front of it, or else the one that its expression lends. -/
def initializerName? (init : Initializer Expr) : Option String :=
  (init.label <|> init.value.lentName).map (·.text)

/-- What is shown for a value that no field may have. A value with mistakes counts as none of
these. -/
def BoundExpr.unusable? (t : TypeTable) (value : BoundExpr) : Option Text :=
  if value.hasAnyErrors then none
  else
    match value.type? with
    | none => some value.display
    | some id =>
      match t.get? id with
      | some d =>
        if d.shape.isVoid || d.shape.isUnsafe || d.shape.isRestricted then
          some (Text.ofString d.name)
        else none
      | none => none

namespace Context

/-- What is reported for the name of an initializer after some others: that it is in use. -/
def nameReports (ctx : Context) (earlier : List (Initializer Expr)) (init : Initializer Expr) :
    List Diagnostic :=
  match fieldName? init with
  | some name =>
    if name.text ∈ fieldNames earlier then [ctx.mistake .duplicatePropertyName init.position]
    else []
  | none => []

/-- What is reported for an initializer with the name of an earlier one. -/
def repeatedReports (ctx : Context) (earlier : List (Initializer Expr)) (init : Initializer Expr) :
    List Diagnostic :=
  match initializerName? init with
  | some name =>
    if name ∈ earlier.filterMap initializerName? then
      [ctx.mistake .duplicatePropertyName init.position]
    else []
  | none => []

/-- What is reported for an initializer whose value no field may have. -/
def valueReports (ctx : Context) (init : Initializer Expr) (value : Outcome BoundExpr) :
    List Diagnostic :=
  match value.result with
  | .ok b =>
    match b.unusable? value.store.table with
    | some shown => [ctx.mistake (.badPropertyValueType shown) init.position]
    | none => []
  | .error _ => []

/-- What becomes of the value of an initializer after those before it have been bound. The
initializer comes with its place among them. -/
def outcomeAt (ctx : Context) (r : Option Receiver) (index : Nat) (used : List String)
    (inits : List (Initializer Expr)) (s : Store) (x : Initializer Expr × Nat) :
    Outcome BoundExpr :=
  ctx.bindExpr r x.1.value (ctx.bindInitializers r index used (inits.take x.2) s).store

end Context

variable {ctx : Context} {index : Nat} {used : List String} {init : Initializer Expr}
  {inits before : List (Initializer Expr)} {s s' : Store} {value : BoundExpr}
  {field : ResolvedField} {ds : List Diagnostic}

/-! ## Names -/

/-- What is reported for the name of an initializer after its value has been bound. -/
theorem FieldNameRule.reports_eq {kept : Option String}
    (hused : ∀ x, x ∈ used ↔ x ∈ fieldNames before)
    (h : FieldNameRule ctx used init (ResolvedField.shapeOf init).1 kept ds) :
    ds = ctx.nameReports before init := by
  unfold Context.nameReports
  rw [← filter_shapeOf]
  cases h with
  | malformed hnone => simp [hnone]
  | repeated n hsome hmem => simp [hsome, (hused _).mp hmem]
  | kept n hsome hfresh => simp [hsome, mt (hused _).mpr hfresh]

/-- What is reported for the type of a field. -/
theorem FieldTypeRule.reports_eq {id : TypeId} {faulty : Bool} {outcome : Outcome BoundExpr}
    (hresult : outcome.result = .ok value) (hstore : outcome.store = s)
    (h : FieldTypeRule s value (ctx.span init.position) id faulty s' ds) :
    ds = ctx.valueReports init outcome := by
  simp only [Context.valueReports, hresult, hstore, BoundExpr.unusable?]
  cases h <;> simp_all [Context.mistake]

/-- What is reported on a field is what its name and its value call for. -/
theorem FieldRule.reports_eq {outcome : Outcome BoundExpr}
    (hused : ∀ x, x ∈ used ↔ x ∈ fieldNames before)
    (hresult : outcome.result = .ok value) (hstore : outcome.store = s)
    (h : FieldRule ctx index used init s value field s' ds) :
    ds = ctx.nameReports before init ++ ctx.valueReports init outcome := by
  cases h with
  | field _ _ _ _ _ _ _ hkept htype _ =>
      rw [hkept.reports_eq hused, htype.reports_eq hresult hstore]

/-! ## Initializers in order -/

/-- The first of several initializers are bound by themselves. -/
theorem BindsFields.take {r : Option Receiver} {index : Nat} {used : List String}
    {inits : List (Initializer Expr)} {s s' : Store} {fields : List ResolvedField}
    {ds : List Diagnostic} (h : BindsFields ctx r index used inits s fields s' ds) (k : Nat) :
    ∃ t d, BindsFields ctx r index used (inits.take k) s (fields.take k) t d := by
  induction k generalizing index used inits s fields ds with
  | zero => exact ⟨s, [], .nil _ _ _ _⟩
  | succ k ih =>
      cases h with
      | nil => exact ⟨_, [], .nil _ _ _ _⟩
      | cons _ _ _ _ _ _ value _ _ field _ _ _ _ _ hvalue hfield hothers =>
          obtain ⟨t, d, hfirst⟩ := ih hothers
          exact ⟨t, _, .cons _ _ _ _ _ _ value _ _ field _ _ _ _ _ hvalue hfield hfirst⟩

/-- The first of several initializers is bound in the store before them. -/
theorem Context.outcomeAt_zero (ctx : Context) (r : Option Receiver) (index : Nat)
    (used : List String) (init : Initializer Expr) (rest : List (Initializer Expr)) (s : Store) :
    ctx.outcomeAt r index used (init :: rest) s (init, 0) = ctx.bindExpr r init.value s := by
  simp [outcomeAt, bindInitializers]

/-- The store after some initializers is that after the first of them and then the others. -/
theorem BindsFields.outcomeAt_succ {r : Option Receiver} {rest : List (Initializer Expr)}
    {others : List ResolvedField} {s₁ s₂ s₃ : Store} {ds₁ ds₂ ds₃ : List Diagnostic}
    (hvalue : Binds ctx r init.value s value s₁ ds₁)
    (hfield : FieldRule ctx index used init s₁ value field s₂ ds₂)
    (hothers : BindsFields ctx r (index + 1) (used ++ field.name.toList) rest s₂ others s₃ ds₃)
    (x : Initializer Expr) (k : Nat) :
    ctx.outcomeAt r index used (init :: rest) s (x, k + 1) =
      ctx.outcomeAt r (index + 1) (used ++ field.name.toList) rest s₂ (x, k) := by
  obtain ⟨t, d, hfirst⟩ := hothers.take k
  have hwhole : BindsFields ctx r index used ((init :: rest).take (k + 1)) s _ t _ :=
    .cons _ _ _ _ _ _ value _ _ field _ _ _ _ _ hvalue hfield hfirst
  rw [Context.outcomeAt, Context.outcomeAt, (Context.yieldsFields_of_binds hwhole).eq.2.1,
    (Context.yieldsFields_of_binds hfirst).eq.2.1]

/-- Mistakes of an initializer itself, apart from those of its value. -/
def Context.ownReports (ctx : Context) (earlier : List (Initializer Expr)) (init : Initializer Expr)
    (value : Outcome BoundExpr) : List Diagnostic :=
  ctx.declaratorReports init ++ ctx.repeatedReports earlier init ++ ctx.valueReports init value

/-- What is known of the fields that initializers make: what is reported for them, what their values
are, and which of them are mistakes. The names of the initializers in `before` are in use. -/
structure ReportedEach (ctx : Context) (before inits : List (Initializer Expr))
    (outcome : Initializer Expr × Nat → Outcome BoundExpr) (fields : List ResolvedField)
    (ds : List Diagnostic) : Prop where
  reports : ds = inits.zipIdx.flatMap fun x =>
    ctx.declaratorReports x.1 ++ (outcome x).diagnostics ++
      ctx.repeatedReports (before ++ inits.take x.2) x.1 ++ ctx.valueReports x.1 (outcome x)
  values : fields.map (fun f => Except.ok f.value) = inits.zipIdx.map fun x => (outcome x).result
  faulty : fields.any (·.faulty) = true ↔
    ∃ x ∈ inits.zipIdx, ctx.ownReports (before ++ inits.take x.2) x.1 (outcome x) ≠ []

/-- No initializers, no reports. -/
theorem ReportedEach.nil {outcome : Initializer Expr × Nat → Outcome BoundExpr} :
    ReportedEach ctx before [] outcome [] [] :=
  ⟨rfl, rfl, by simp⟩

/-- The reports on the first initializer come before those on the others. -/
theorem ReportedEach.cons {rest : List (Initializer Expr)} {others : List ResolvedField}
    {outcome outcome' : Initializer Expr × Nat → Outcome BoundExpr} {ds' : List Diagnostic}
    (hvalue : (outcome (init, 0)).result = .ok field.value)
    (hds : ds = (outcome (init, 0)).diagnostics ++ ctx.repeatedReports before init ++
      ctx.valueReports init (outcome (init, 0)))
    (hfaulty : field.faulty = true ↔ ctx.ownReports before init (outcome (init, 0)) ≠ [])
    (hlater : ∀ x k, outcome (x, k + 1) = outcome' (x, k))
    (h : ReportedEach ctx (before ++ [init]) rest outcome' others ds') :
    ReportedEach ctx before (init :: rest) outcome (field :: others)
      (ctx.declaratorReports init ++ ds ++ ds') where
  reports := by
    rw [h.reports, hds, List.zipIdx_cons, List.flatMap_cons, List.zipIdx_succ, List.flatMap_map]
    simp [hlater]
  values := by
    rw [List.zipIdx_cons, List.map_cons, List.map_cons, List.zipIdx_succ, List.map_map, h.values,
      hvalue]
    simp [Function.comp_def, hlater]
  faulty := by
    rw [List.any_cons, Bool.or_eq_true, hfaulty, h.faulty, List.zipIdx_cons, List.zipIdx_succ]
    simp [hlater]

end AnonymousObjects
