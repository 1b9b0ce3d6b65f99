import AnonymousObjects.Proofs.Binding.Rules
import AnonymousObjects.Proofs.Syntax.Readings

/-!
# Fields without mistakes

What the rules for a field make of an initializer: `FieldRule.of_clean` says what is known of a
field that nothing is wrong with, and `FieldRule.reports_iff` that in trees from source text nothing
is wrong with a field exactly when nothing is reported for it.
-/

namespace AnonymousObjects

open Syntax (Expr Initializer Name)

/-- A type that the fields of anonymous types may have. -/
def TypeShape.isUsable (shape : TypeShape) : Bool :=
  !(shape.isVoid || shape.isUnsafe || shape.isRestricted)

/-- The name that an initializer has, unless it is malformed or missing: that in front of it, or
else the one that its expression lends. -/
def fieldName? (init : Initializer Expr) : Option Name :=
  (init.label <|> init.value.lentName).filter (·.isIdentifier)

variable {ctx : Context} {index : Nat} {used : List String} {init : Initializer Expr}
  {s s' : Store} {value : BoundExpr} {field : ResolvedField} {ds : List Diagnostic}

/-- The shape of an initializer has the name of its field where that is an identifier. -/
theorem filter_shapeOf (init : Initializer Expr) :
    (ResolvedField.shapeOf init).1.filter (·.isIdentifier) = fieldName? init := by
  obtain ⟨place, label, e⟩ := init
  cases label <;> rfl

/-- The value of a field is that of its initializer. -/
theorem FieldRule.value_eq (h : FieldRule ctx index used init s value field s' ds) :
    field.value = value := by
  cases h
  rfl

/-- What is known of a field that nothing is wrong with. -/
structure CleanField (used : List String) (init : Initializer Expr) (s : Store) (value : BoundExpr)
    (field : ResolvedField) (n : Name) (id : TypeId) (d : TypeDef) : Prop where
  named : (ResolvedField.shapeOf init).2 = false
  fieldName : fieldName? init = some n
  fresh : n.text ∉ used
  type : value.type? = some id
  get : s.table.get? id = some d
  usable : d.shape.isUsable = true
  name : field.name = some n.text
  fieldEq : field.field.name = n.text ∧ field.field.type = id

/-- A field without a mistake comes from a value without one, creates nothing and reports nothing.
-/
theorem FieldRule.of_clean (h : FieldRule ctx index used init s value field s' ds)
    (hvalue : value.hasAnyErrors = false) (hfaulty : field.faulty = false) :
    (∃ n id d, CleanField used init s value field n id d) ∧ s' = s ∧ ds = [] := by
  cases h with
  | field kept _ type badType _ _ _ hname htype _ =>
      simp only [Bool.or_eq_false_iff] at hfaulty
      obtain ⟨⟨⟨hnamed, _⟩, hkept⟩, hbad⟩ := hfaulty
      cases hname with
      | malformed => simp at hkept
      | repeated => simp at hkept
      | kept n hfilter hfresh =>
          subst hbad
          cases htype with
          | faulty _ hvalue' => simp [hvalue] at hvalue'
          | faultyUntyped hvalue' => simp [hvalue] at hvalue'
          | usable _ d _ hid hd hvoid hdenied =>
              rw [filter_shapeOf] at hfilter
              refine ⟨⟨n, type, d, hnamed, hfilter, hfresh, hid, hd, ?_, rfl, rfl, rfl⟩, rfl, rfl⟩
              simp_all [TypeShape.isUsable]

/-- The type of a field is reported exactly where it is a mistake. -/
theorem FieldTypeRule.reports_iff {span : Span} {id : TypeId} {faulty : Bool}
    (h : FieldTypeRule s value span id faulty s' ds) : ds = [] ↔ faulty = false := by
  cases h <;> simp

/-- The name of an initializer of a readable tree is a word. -/
theorem isProper_of_fieldName? {n : Name} (hlabel : init.label.all (·.isProper) = true)
    (hproper : init.value.isProper = true) (hname : fieldName? init = some n) :
    n.isProper = true := by
  have hsource := (Option.filter_eq_some_iff.mp hname).1
  obtain ⟨place, label, e⟩ := init
  cases label with
  | some name =>
    obtain rfl : name = n := Option.some.inj hsource
    simpa using hlabel
  | none => exact Expr.isProper_of_lentName hproper hsource

/-- An initializer of a readable tree has a name unless none is lent. -/
theorem fieldName?_of_proper (hlabel : init.label.all (·.isProper) = true)
    (hproper : init.value.isProper = true) (hnamed : (ResolvedField.shapeOf init).2 = false) :
    ∃ n, fieldName? init = some n := by
  obtain ⟨place, label, e⟩ := init
  cases label with
  | some name =>
    have hname : name.isProper = true := by simpa using hlabel
    exact ⟨name, by simp [fieldName?, Name.isIdentifier_of_proper hname]⟩
  | none =>
    have hlends : e.lendsName = true := by simpa [ResolvedField.shapeOf] using hnamed
    obtain ⟨name, hlent, hname⟩ := Expr.lentName_of_proper hproper hlends
    exact ⟨name, by simp [fieldName?, hlent, Name.isIdentifier_of_proper hname]⟩

/-- The name of a field is reported exactly where it is not kept. -/
theorem FieldNameRule.reports_iff {kept : Option String} {n : Name}
    (hname : fieldName? init = some n)
    (h : FieldNameRule ctx used init (ResolvedField.shapeOf init).1 kept ds) :
    ds = [] ↔ kept.isNone = false := by
  cases h with
  | malformed hnone =>
      rw [filter_shapeOf, hname] at hnone
      cases hnone
  | repeated => simp
  | kept => simp

/-- Unreadable text is no part of a readable tree. -/
theorem isError_of_proper {e : Expr} (h : e.isProper = true) : e.isError = false := by
  cases e <;> simp_all [Expr.isError, Expr.isProper]

/-- Nothing is wrong with a field apart from its value exactly when nothing is reported for it. -/
theorem FieldRule.reports_iff (hlabel : init.label.all (·.isProper) = true)
    (hproper : init.value.isProper = true)
    (h : FieldRule ctx index used init s value field s' ds) :
    ctx.declaratorReports init = [] ∧ ds = [] ↔ field.faulty = false := by
  cases h with
  | field kept nameReports type badType _ typeReports _ hname htype _ =>
      have herror := isError_of_proper hproper
      cases hnamed : (ResolvedField.shapeOf init).2 with
      | true => simp [Context.declaratorReports, hnamed]
      | false =>
          obtain ⟨n, hn⟩ := fieldName?_of_proper hlabel hproper hnamed
          have hnames := hname.reports_iff hn
          have htypes := htype.reports_iff
          simp [Context.declaratorReports, hnamed, herror, hnames, htypes]

end AnonymousObjects
