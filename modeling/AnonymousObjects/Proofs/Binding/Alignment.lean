import AnonymousObjects.Proofs.Binding.Fields
import AnonymousObjects.Proofs.Binding.Progress
import Mathlib.Data.List.Nodup

/-!
# Fields stay with their initializers

The fields, arguments, properties and parameters of a creation stand in the order of its
initializers, one for each, whatever is wrong with them. `Aligned` spells this out together with the
names of the fields, and `bindExpr_creation_aligned` says that every creation that is bound is
aligned.
-/

namespace AnonymousObjects

open Syntax (Expr Initializer Name Program)
open Text (isIdentifier)

/-! ## Names of fields -/

/-- The names of initializers in order, with those that are repeated. -/
def fieldNames (inits : List (Initializer Expr)) : List String :=
  inits.filterMap fun init => (fieldName? init).map (·.text)

/-- The name that an initializer's field keeps where other names are in use. -/
def nameAfter (before : List String) (init : Initializer Expr) : Option String :=
  (fieldName? init).bind fun name => if name.text ∈ before then none else some name.text

/-- The name that the field at an index keeps: that of its initializer, unless an earlier one has
it. -/
def keptName? (inits : List (Initializer Expr)) (i : Nat) : Option String :=
  inits[i]?.bind (nameAfter (fieldNames (inits.take i)))

variable {ctx : Context} {r : Option Receiver} {index i j k : Nat} {used before : List String}
  {init : Initializer Expr} {inits : List (Initializer Expr)} {s s' : Store} {value : BoundExpr}
  {field : ResolvedField} {fields : List ResolvedField} {ds : List Diagnostic}

/-- The first of several initializers comes first among the field names. -/
theorem fieldNames_cons (init : Initializer Expr) (inits : List (Initializer Expr)) :
    fieldNames (init :: inits) = fieldNames [init] ++ fieldNames inits :=
  List.filterMap_append (l := [init])

/-- Only which names are used matters for the name that an initializer gets. -/
theorem nameAfter_congr (h : ∀ x, x ∈ used ↔ x ∈ before) (init : Initializer Expr) :
    nameAfter used init = nameAfter before init := by
  simp only [nameAfter, h]

/-- The rule for field names keeps the name that is left after those used before. -/
theorem FieldNameRule.eq_nameAfter {kept : Option String}
    (h : FieldNameRule ctx used init (ResolvedField.shapeOf init).1 kept ds) :
    kept = nameAfter used init := by
  cases h with
  | malformed hname =>
      rw [filter_shapeOf] at hname
      simp [nameAfter, hname]
  | repeated n hname hused =>
      rw [filter_shapeOf] at hname
      simp [nameAfter, hname, hused]
  | kept n hname hfresh =>
      rw [filter_shapeOf] at hname
      simp [nameAfter, hname, hfresh]

/-- The names in use after an initializer are those of the initializers so far. -/
theorem mem_append_nameAfter (h : ∀ x, x ∈ used ↔ x ∈ before) (init : Initializer Expr)
    (x : String) :
    x ∈ used ++ (nameAfter used init).toList ↔ x ∈ before ++ fieldNames [init] := by
  cases hname : fieldName? init with
  | none => simp [nameAfter, fieldNames, hname, h]
  | some n =>
    by_cases hused : n.text ∈ before
    · simp only [nameAfter, fieldNames, hname, h, hused, Option.bind_some, if_true,
        Option.toList_none, List.append_nil, List.filterMap_cons, Option.map_some,
        List.filterMap_nil, List.mem_append, List.mem_singleton]
      exact ⟨.inl, fun hx => hx.elim id fun hx => hx ▸ hused⟩
    · simp [nameAfter, fieldNames, hname, h, hused]

/-- What the field of an initializer is, apart from its value and type. -/
structure FieldOf (index : Nat) (before : List String) (init : Initializer Expr)
    (field : ResolvedField) : Prop where
  label : field.label = init.label
  name : field.name = nameAfter before init
  shown : field.field.name = field.name.getD ("$" ++ toString index)

/-- A resolved field is the one that its initializer asks for. -/
theorem FieldRule.fieldOf (h : FieldRule ctx index used init s value field s' ds) :
    FieldOf index used init field := by
  cases h with
  | field _ _ _ _ _ _ _ hname => exact ⟨rfl, hname.eq_nameAfter, rfl⟩

/-! ## Initializers in order -/

/-- There is a field for each initializer. -/
theorem BindsFields.length {r : Option Receiver} {index : Nat} {used : List String}
    {inits : List (Initializer Expr)} {s s' : Store} {fields : List ResolvedField}
    {ds : List Diagnostic} (h : BindsFields ctx r index used inits s fields s' ds) :
    fields.length = inits.length := by
  match h with
  | .nil .. => rfl
  | .cons _ _ _ _ _ _ _ _ _ _ _ _ _ _ _ _ _ hothers => simp [hothers.length]

/-- The field at a place is that of the initializer there. -/
theorem BindsFields.fieldOf {r : Option Receiver} {index : Nat} {used before : List String}
    {inits : List (Initializer Expr)} {s s' : Store} {fields : List ResolvedField}
    {ds : List Diagnostic} (h : BindsFields ctx r index used inits s fields s' ds)
    (hused : ∀ x, x ∈ used ↔ x ∈ before) {k : Nat} {f : ResolvedField}
    (hf : fields[k]? = some f) :
    ∃ init, inits[k]? = some init ∧
      FieldOf (index + k) (before ++ fieldNames (inits.take k)) init f := by
  match h with
  | .nil .. => simp at hf
  | .cons _ _ _ init rest _ value _ _ field _ _ others _ _ _ hfield hothers =>
      have hof := hfield.fieldOf
      cases k with
      | zero =>
          obtain rfl : field = f := by simpa using hf
          refine ⟨init, rfl, hof.label, ?_, hof.shown⟩
          rw [hof.name, nameAfter_congr hused]
          simp [fieldNames]
      | succ k =>
          -- What is in use after the first initializer depends on the name that its field has kept.
          have hused' := mem_append_nameAfter hused init
          rw [← hof.name] at hused'
          obtain ⟨next, hnext, hat⟩ := hothers.fieldOf hused' (k := k) (by simpa using hf)
          refine ⟨next, by simpa using hnext, hat.label, ?_, ?_⟩
          · rw [hat.name, List.append_assoc, ← fieldNames_cons, List.take_succ_cons]
          · rw [hat.shown, Nat.add_right_comm, Nat.add_assoc]

/-- The value at a place is what the initializer there is bound to after those before it. -/
theorem BindsFields.valueAt {r : Option Receiver} {index : Nat} {used : List String}
    {inits : List (Initializer Expr)} {s s' : Store} {fields : List ResolvedField}
    {ds : List Diagnostic} (h : BindsFields ctx r index used inits s fields s' ds) {k : Nat}
    {f : ResolvedField} (hf : fields[k]? = some f) :
    ∃ init t d t' d', inits[k]? = some init ∧
      BindsFields ctx r index used (inits.take k) s (fields.take k) t d ∧
      Binds ctx r init.value t f.value t' d' := by
  match h with
  | .nil .. => simp at hf
  | .cons _ _ _ init rest _ value t ds₁ field u ds₂ others _ _ hvalue hfield hothers =>
      cases k with
      | zero =>
          obtain rfl : field = f := by simpa using hf
          exact ⟨init, _, [], _, _, rfl, .nil _ _ _ _, hfield.value_eq ▸ hvalue⟩
      | succ k =>
          obtain ⟨next, v, d, v', d', hnext, hbefore, hbound⟩ :=
            hothers.valueAt (k := k) (by simpa using hf)
          exact ⟨next, v, _, v', d', by simpa using hnext,
            .cons _ _ _ _ _ _ value _ _ field _ _ _ _ _ hvalue hfield hbefore, hbound⟩

/-! ## Names tell fields apart -/

/-- Numbers are told apart by the names of the fields that stand for them. -/
theorem placeholder_injective (h : "$" ++ toString i = "$" ++ toString j) : i = j := by
  have hdigits : (Nat.repr i).toList = (Nat.repr j).toList := by
    simpa [toString] using congrArg String.toList h
  rw [Nat.toList_repr, Nat.toList_repr] at hdigits
  have hvalue := congrArg (Nat.ofDigitChars 10 · 0) hdigits
  simpa [Nat.ofDigitChars_toDigits] using hvalue

/-- A field named by its position has no identifier as its name. -/
theorem placeholder_not_identifier (i : Nat) :
    isIdentifier ("$" ++ toString i).toList = false := by
  have hdollar : Text.startsIdentifier '$' = false := by decide
  simp [isIdentifier, hdollar]

/-- A name that is kept is an identifier. -/
theorem isIdentifier_of_keptName? {x : String} (h : keptName? inits i = some x) :
    isIdentifier x.toList = true := by
  simp only [keptName?, nameAfter, Option.bind_eq_some_iff] at h
  obtain ⟨init, _, name, hname, hx⟩ := h
  split at hx
  · cases hx
  · obtain rfl := Option.some.inj hx
    exact (Option.filter_eq_some_iff.mp hname).2

/-- No two fields keep the same name. -/
theorem keptName?_ne {x y : String} (hij : i < j) (hx : keptName? inits i = some x)
    (hy : keptName? inits j = some y) : x ≠ y := by
  rintro rfl
  simp only [keptName?, nameAfter, Option.bind_eq_some_iff] at hx hy
  obtain ⟨first, hfirst, name, hname, hx⟩ := hx
  obtain ⟨second, hsecond, name', hname', hy⟩ := hy
  split at hx
  · cases hx
  · split at hy
    · cases hy
    · next hfresh =>
      obtain rfl := Option.some.inj hx
      rw [Option.some.inj hy] at hfresh
      refine hfresh (List.mem_filterMap.mpr ⟨first, ?_, by simp [hname]⟩)
      exact List.mem_of_getElem? (i := i) (by simp [hij, hfirst])

/-- The name of the field at an index. -/
def shownName (inits : List (Initializer Expr)) (i : Nat) : String :=
  (keptName? inits i).getD ("$" ++ toString i)

/-- No two fields have the same name. -/
theorem shownName_injective (inits : List (Initializer Expr))
    (h : shownName inits i = shownName inits j) : i = j := by
  -- A kept name is an identifier and a placeholder is not, so only names of one kind can agree.
  have hlt : ∀ {i j}, i < j → shownName inits i ≠ shownName inits j := by
    intro i j hij heq
    unfold shownName at heq
    cases hi : keptName? inits i with
    | none =>
      cases hj : keptName? inits j with
      | none => exact Nat.ne_of_lt hij (placeholder_injective (by simpa [hi, hj] using heq))
      | some y =>
        have hidentifier := isIdentifier_of_keptName? hj
        rw [hi, hj, Option.getD_none, Option.getD_some] at heq
        rw [← heq, placeholder_not_identifier] at hidentifier
        cases hidentifier
    | some x =>
      cases hj : keptName? inits j with
      | none =>
        have hidentifier := isIdentifier_of_keptName? hi
        rw [hi, hj, Option.getD_none, Option.getD_some] at heq
        rw [heq, placeholder_not_identifier] at hidentifier
        cases hidentifier
      | some y => exact keptName?_ne hij hi hj (by simpa [hi, hj] using heq)
  rcases Nat.lt_trichotomy i j with hij | hij | hij
  · exact absurd h (hlt hij)
  · exact hij
  · exact absurd h.symm (hlt hij)

/-! ## Members by name -/

/-- The property that a member is. -/
def AnonymousMember.property? : AnonymousMember → Option Property
  | .property p => some p
  | .constructor _ | .method _ => none

namespace AnonymousType

/-- The property found under a name is the first one of that name, whatever methods there are. -/
theorem propertyNamed?_eq_find? (a : AnonymousType) (name : String) :
    a.propertyNamed? name = a.properties.find? (·.name = name) := by
  have hmembers : a.propertyNamed? name =
      (a.membersNamed name).findSome? AnonymousMember.property? := by
    unfold propertyNamed?
    congr 1
    funext m
    cases m <;> rfl
  -- Neither the constructor nor the methods are properties, whatever their names.
  have hconstructor : (([AnonymousMember.constructor a.constructor].filter
      (·.name = name)).findSome? AnonymousMember.property?) = none := by
    rw [List.findSome?_eq_none_iff]
    intro m hm
    rw [List.mem_singleton.mp (List.mem_filter.mp hm).1]
    rfl
  have hproperties (ps : List Property) :
      ((ps.map AnonymousMember.property).filter (·.name = name)).findSome?
        AnonymousMember.property? = ps.find? (·.name = name) := by
    rw [List.filter_map, List.findSome?_map, ← List.head?_filter, ← List.head?_filterMap]
    exact congrArg List.head? (List.filterMap_some)
  have hmethods (ms : List Method) :
      ((ms.map AnonymousMember.method).filter (·.name = name)).findSome?
        AnonymousMember.property? = none := by
    rw [List.findSome?_eq_none_iff]
    intro m hm
    obtain ⟨method, _, rfl⟩ := List.mem_map.mp (List.mem_filter.mp hm).1
    rfl
  rw [hmembers, membersNamed, members, ← List.singleton_append, List.append_assoc,
    List.filter_append, List.filter_append, List.findSome?_append, List.findSome?_append,
    hconstructor, hproperties, hmethods]
  simp

/-- Where names differ, the property found under the name of a property is that property. -/
theorem propertyNamed?_of_getElem? {a : AnonymousType} {p : Property}
    (hnames : (a.properties.map (·.name)).Nodup) (hp : a.properties[i]? = some p) :
    a.propertyNamed? p.name = some p := by
  rw [propertyNamed?_eq_find?, List.find?_eq_some_iff_getElem]
  obtain ⟨hi, rfl⟩ := List.getElem?_eq_some_iff.mp hp
  refine ⟨by simp, i, hi, rfl, fun j hj => ?_⟩
  have hne := List.nodup_iff_getElem?_ne_getElem?.mp hnames j i hj (by simpa using hi)
  simpa [Nat.lt_trans hj hi, hi] using hne

end AnonymousType

/-! ## Creations -/

/-- The declaration of the property at an index, if its initializer has a label and keeps it. -/
def declarationAt? (inits : List (Initializer Expr)) (type : AnonymousType) (i : Nat) :
    Option PropertyDeclaration := do
  let init ← inits[i]?
  let label ← init.label
  let _ ← keptName? inits i
  let property ← type.properties[i]?
  pure ⟨label, property, property.type⟩

/-- What the parts of a creation bound in the store `s` have to do with its initializers. -/
structure Aligned (ctx : Context) (r : Option Receiver) (s : Store)
    (inits : List (Initializer Expr)) (type : AnonymousType) (fields : List AnonymousField)
    (arguments : List BoundExpr) (declarations : List PropertyDeclaration) : Prop where
  fields_length : fields.length = inits.length
  arguments_length : arguments.length = inits.length
  properties_length : type.properties.length = inits.length
  params_length : type.constructor.params.length = inits.length
  argument : ∀ i init, inits[i]? = some init → ∃ value, arguments[i]? = some value ∧
    (ctx.bindExpr r init.value
      (ctx.bindInitializers r 0 [] (inits.take i) s).store).result = .ok value
  property : ∀ (i : Nat) (f : AnonymousField), fields[i]? = some f →
    type.properties[i]? = some ⟨f.name, i, f.type, type.id⟩
  param : ∀ (i : Nat) (f : AnonymousField), fields[i]? = some f →
    type.constructor.params[i]? = some f.type
  name : ∀ (i : Nat) (f : AnonymousField), fields[i]? = some f → f.name = shownName inits i
  nodup : (fields.map (·.name)).Nodup
  declared : declarations = (List.range inits.length).filterMap (declarationAt? inits type)

/-- Going through the places of a list is going through the list. -/
theorem filterMap_range {α β : Type} (l : List α) (f : α → Option β) :
    (List.range l.length).filterMap (fun i => l[i]?.bind f) = l.filterMap f := by
  induction l with
  | nil => rfl
  | cons a l ih =>
    simp only [List.length_cons, List.range_succ_eq_map, List.filterMap_cons, List.filterMap_map]
    simp [ih]

/-- A creation is bound to a node of the type that its fields get. -/
theorem Binds.creation_cases {p new : Option Position}
    (h : Binds ctx r (.creation p new inits) s value s' ds) :
    ∃ fields t reports type, BindsFields ctx r 0 [] inits s fields t reports ∧
      t.intern (fields.map (·.field)) (ctx.span new) = .ok (type, s') ∧
      ds = reports ++ ctx.creationReports new ∧
      value = creationNode ctx (.creation p new inits) new fields type := by
  cases h with
  | creation _ _ _ _ _ fields t reports type _ hfields htype =>
      exact ⟨fields, t, reports, type, hfields, htype, rfl, rfl⟩

namespace BindsFields

variable {type : AnonymousType}

/-- The name of the field at a place. -/
theorem nameAt (h : BindsFields ctx r 0 [] inits s fields s' ds) (hf : fields[i]? = some field) :
    ∃ init, inits[i]? = some init ∧ field.label = init.label ∧ field.name = keptName? inits i ∧
      field.field.name = shownName inits i := by
  have hused : ∀ x, x ∈ ([] : List String) ↔ x ∈ ([] : List String) := fun _ => .rfl
  obtain ⟨init, hinit, hof⟩ := h.fieldOf hused hf
  have hname : field.name = keptName? inits i := by
    rw [hof.name, List.nil_append, keptName?, hinit, Option.bind_some]
  exact ⟨init, hinit, hof.label, hname, by rw [hof.shown, hname, Nat.zero_add, shownName]⟩

/-- No two fields have the same name. -/
theorem nodup (h : BindsFields ctx r 0 [] inits s fields s' ds) :
    (fields.map (·.field.name)).Nodup := by
  rw [List.nodup_iff_getElem?_ne_getElem?]
  intro i j hij hj heq
  rw [List.length_map] at hj
  have hi := Nat.lt_trans hij hj
  obtain ⟨_, _, _, _, hname⟩ := h.nameAt (List.getElem?_eq_getElem hi)
  obtain ⟨_, _, _, _, hname'⟩ := h.nameAt (List.getElem?_eq_getElem hj)
  refine Nat.ne_of_lt hij (shownName_injective inits ?_)
  rw [← hname, ← hname']
  simpa [hi, hj] using heq

/-- The property at the place of a field is that of the field. -/
theorem propertyAt (hkey : type.key = AnonymousKey.ofFields (fields.map (·.field)))
    (hbuilt : type.Built) (i : Nat) :
    type.properties[i]? =
      fields[i]?.map fun f => ⟨f.field.name, i, f.field.type, type.id⟩ := by
  rw [hbuilt.properties, Store.getElem?_properties, hkey, AnonymousKey.ofFields]
  simp [Function.comp_def]

/-- The declarations are those of the properties whose initializers have labels and keep them. -/
theorem declared (h : BindsFields ctx r 0 [] inits s fields s' ds)
    (hkey : type.key = AnonymousKey.ofFields (fields.map (·.field))) (hbuilt : type.Built) :
    fields.filterMap (·.declaration? type) =
      (List.range inits.length).filterMap (declarationAt? inits type) := by
  have hnames : (type.properties.map (·.name)).Nodup := by
    rw [AnonymousType.names_of_key hkey, List.map_map]
    exact h.nodup
  rw [← filterMap_range, h.length]
  refine List.filterMap_congr fun i hi => ?_
  rw [List.mem_range, ← h.length] at hi
  have hf := List.getElem?_eq_getElem hi
  obtain ⟨init, hinit, hlabel, hname, hshown⟩ := h.nameAt hf
  have hproperty := propertyAt hkey hbuilt i
  rw [hf, Option.map_some] at hproperty
  simp only [hf, Option.bind_some, ResolvedField.declaration?, declarationAt?, hinit, hlabel, hname,
    hproperty]
  cases hkept : keptName? inits i with
  | none => rfl
  | some x =>
      have hx : x = fields[i].field.name := by simp [hshown, shownName, hkept]
      have hfound := type.propertyNamed?_of_getElem? hnames hproperty
      dsimp only at hfound
      simp [hx, hfound]

/-- A creation whose fields were bound one by one has its type, fields and declarations aligned. -/
theorem aligned (h : BindsFields ctx r 0 [] inits s fields s' ds)
    (hkey : type.key = AnonymousKey.ofFields (fields.map (·.field))) (hbuilt : type.Built) :
    Aligned ctx r s inits type (fields.map (·.field)) (fields.map (·.value))
      (fields.filterMap (·.declaration? type)) where
  fields_length := by rw [List.length_map, h.length]
  arguments_length := by rw [List.length_map, h.length]
  properties_length := by
    rw [hbuilt.properties, Store.length_properties, hkey, AnonymousKey.ofFields, List.length_map,
      List.length_map, h.length]
  params_length := by
    rw [hbuilt.constructor, hkey, AnonymousKey.ofFields, List.length_map, List.length_map,
      List.length_map, h.length]
  argument i init hinit := by
    have hi : i < fields.length := h.length ▸ (List.getElem?_eq_some_iff.mp hinit).1
    obtain ⟨init', t, d, t', d', hinit', hbefore, hvalue⟩ :=
      h.valueAt (List.getElem?_eq_getElem hi)
    obtain rfl : init = init' := Option.some.inj (hinit.symm.trans hinit')
    refine ⟨fields[i].value, by simp [hi], ?_⟩
    -- The store in which the value is bound is what binding the initializers before it leaves.
    rw [(Context.yieldsFields_of_binds hbefore).eq.2.1]
    exact (Context.yields_of_binds hvalue).eq.1
  property i f hf := by
    rw [List.getElem?_map, Option.map_eq_some_iff] at hf
    obtain ⟨field, hfield, rfl⟩ := hf
    rw [propertyAt hkey hbuilt, hfield, Option.map_some]
  param i f hf := by
    rw [hbuilt.constructor, hkey, AnonymousKey.ofFields, List.getElem?_map, List.getElem?_map, hf]
    rfl
  name i f hf := by
    rw [List.getElem?_map, Option.map_eq_some_iff] at hf
    obtain ⟨field, hfield, rfl⟩ := hf
    obtain ⟨_, _, _, _, hname⟩ := h.nameAt hfield
    exact hname
  nodup := by
    rw [List.map_map]
    exact h.nodup
  declared := h.declared hkey hbuilt

end BindsFields

/-- Every creation that is bound, in whatever reachable store and inside whatever conditional
access, has its parts in the order of its initializers. -/
theorem bindExpr_creation_aligned (p : Program) (nullable : Option Bool) (file : Option String)
    (member : Option ContainingMember) (r : Option Receiver) {s : Store}
    (hs : (Compilation.ofProgram p nullable file).Reachable s) {position new : Option Position}
    {inits : List (Initializer Expr)} {b : BoundExpr}
    (h : (((Compilation.ofProgram p nullable file).context member).bindExpr r
      (.creation position new inits) s).result = .ok b) :
    ∃ type fields arguments declarations faulty,
      b = .creation (.creation position new inits) new type fields arguments declarations faulty ∧
        Aligned ((Compilation.ofProgram p nullable file).context member) r s inits type fields
          arguments declarations := by
  have hfits := Compilation.ofProgram_fits p nullable file member
  obtain ⟨fields, t, _, type, hfields, htype, _, rfl⟩ :=
    (Context.binds_of_yields (Action.yields_of_result h)).creation_cases
  have hsound := (hfields.sound hfits hs.sound).1
  obtain ⟨hmem, hkey⟩ := hsound.intern_spec hfits.table htype
  have hsound' := (hsound.step hfits.table (.intern _ _ _ _ _ htype)).1
  exact ⟨type, _, _, _, _, rfl, hfields.aligned hkey (hsound'.built type hmem)⟩

/-- The fields of `new { Equals = 1, é = 2, é = 3, 4 }` are aligned, two of them without names. -/
theorem aligned_of_repeated_name :
    let c := Compilation.ofProgram {} none none
    let literal (n : Int) : Expr := .literal none ⟨.int, .int n⟩
    let inits : List (Initializer Expr) :=
      [⟨none, some ⟨"Equals", none⟩, literal 1⟩, ⟨none, some ⟨"é", none⟩, literal 2⟩,
        ⟨none, some ⟨"é", none⟩, literal 3⟩, ⟨none, none, literal 4⟩]
    c.Reachable c.store ∧
      ∃ b, ((c.context none).bindExpr none (.creation none none inits) c.store).result = .ok b ∧
        ∃ type fields arguments declarations faulty,
          b = .creation (.creation none none inits) none type fields arguments declarations faulty ∧
            Aligned (c.context none) none c.store inits type fields arguments declarations := by
  intro c literal inits
  have hbound : ((c.context none).bindExpr none (.creation none none inits)
      c.store).result.toOption.isSome = true := by decide +kernel
  cases hresult : ((c.context none).bindExpr none (.creation none none inits) c.store).result with
  | error fault => simp [hresult, Except.toOption] at hbound
  | ok b =>
    exact ⟨.refl, b, rfl, bindExpr_creation_aligned {} none none none none .refl hresult⟩

end AnonymousObjects
