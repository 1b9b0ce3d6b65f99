import AnonymousObjects.Proofs.Binding.Repetition
import AnonymousObjects.Proofs.Types.Regularity

/-!
# What a table has answered

A host may use a table in any way, and its requests may be refused. `TypeTable.answers` lists the
requests of a run that got a type, each with that type. What a request asked for says what the type
is made of (`Operation.Answered`), a longer table does not change that, and no two types are made
alike. So a builtin, error, pointer or nullable type is the same whenever it is asked for again, and
two of them are never mixed up: `run_canonical`.
-/

namespace AnonymousObjects.TypeTable

/-! ## Answers -/

/-- The type that an operation gives, with the table it leaves, unless it is refused or gives
none. -/
def request? (t : TypeTable) : Operation → Option (TypeId × TypeTable)
  | .ensure b => some (t.ensure b)
  | .builtins => none
  | .ensureError name => some (t.ensureError name)
  | .declareClass name => (t.declareClass name).toOption
  | .declareStruct name restricted => (t.declareStruct name restricted).toOption
  | .defineFields _ _ => none
  | .pointerTo target => (t.pointerTo target).toOption
  | .nullableOf inner => (t.nullableOf inner).toOption
  | .addAnonymous name fields => some (t.addAnonymous name fields)

/-- The type that an operation gives. -/
def answer? (t : TypeTable) (op : Operation) : Option TypeId :=
  (t.request? op).map (·.1)

/-- The table after any number of operations. -/
def run (t : TypeTable) : List Operation → TypeTable
  | [] => t
  | op :: ops => run (t.after op) ops

/-- The operations that gave a type, each with the type, in order. -/
def answers (t : TypeTable) : List Operation → List (Operation × TypeId)
  | [] => []
  | op :: ops => ((t.answer? op).map (op, ·)).toList ++ answers (t.after op) ops

namespace Operation

/-- The operations that look for a type before they make one. -/
def isCached : Operation → Bool
  | ensure _ | ensureError _ | pointerTo _ | nullableOf _ => true
  | builtins | declareClass _ | declareStruct _ _ | defineFields _ _ | addAnonymous _ _ => false

/-- What a type is made of that an operation gave. -/
def Answered (t : TypeTable) (id : TypeId) : Operation → Prop
  | ensure b => ∃ d, t.get? id = some d ∧ d.shape.isNamed = true ∧ d.name = b.name
  | ensureError name => t.get? id = some ⟨.error, name⟩
  | declareClass name | declareStruct name _ =>
    ∃ d, t.get? id = some d ∧ d.shape.isNamed = true ∧ d.name = name
  | pointerTo target => ∃ name, t.get? id = some ⟨.pointer target, name⟩
  | nullableOf inner => ∃ d, t.get? inner = some d ∧
    ((d.shape = .value ∧ ∃ name, t.get? id = some ⟨.nullable inner, name⟩) ∨
      (d.shape ≠ .value ∧ id = inner))
  | addAnonymous name fields => t.get? id = some ⟨.anonymous fields, name⟩
  | builtins | defineFields _ _ => False

end Operation

open Operation (Answered)

variable {t u : TypeTable} {op : Operation} {id : TypeId} {p : TypeDef → Bool} {d : TypeDef}

/-- No run changes or removes a type. -/
theorem defs_run (t : TypeTable) (ops : List Operation) : t.defs <+: (t.run ops).defs := by
  induction ops generalizing t with
  | nil => exact List.prefix_rfl
  | cons op ops ih => exact (t.defs_after op).trans (ih (t.after op))

/-- A longer table does not change what a type is made of. -/
theorem Operation.Answered.mono (h : Answered t id op) (hdefs : t.defs <+: u.defs) :
    Answered u id op := by
  cases op with
  | ensure | declareClass | declareStruct =>
      obtain ⟨d, hd, hnamed⟩ := h
      exact ⟨d, get?_mono hdefs hd, hnamed⟩
  | ensureError | addAnonymous => exact get?_mono hdefs h
  | pointerTo target =>
      obtain ⟨name, hget⟩ := h
      exact ⟨name, get?_mono hdefs hget⟩
  | nullableOf inner =>
      obtain ⟨d, hd, hmade⟩ := h
      refine ⟨d, get?_mono hdefs hd, hmade.imp_left ?_⟩
      intro ⟨hvalue, name, hget⟩
      exact ⟨hvalue, name, get?_mono hdefs hget⟩
  | builtins | defineFields => cases h

/-! ## One request -/

/-- What was found or added has the property looked for. -/
theorem findOrAdd_spec (t : TypeTable) (hd : p d = true) :
    ∃ e, (t.findOrAdd p d).2.get? (t.findOrAdd p d).1 = some e ∧ p e = true :=
  find?_spec (find?_findOrAdd t hd)

/-- Only the error type of a name is found when that is looked for. -/
theorem eq_error_of_search {name : String} (h : (d.shape.isError && d.name == name) = true) :
    d = ⟨.error, name⟩ := by
  obtain ⟨shape, shown⟩ := d
  obtain ⟨hshape, rfl⟩ : shape.isError = true ∧ shown = name := by simpa using h
  cases shape with
  | error => rfl
  | _ => cases hshape

/-- A pointer type is given where its target exists. -/
theorem pointerTo_eq_ok_iff {target : TypeId} {made : TypeId × TypeTable} :
    t.pointerTo target = .ok made ↔ ∃ d, t.get? target = some d ∧
      t.findOrAdd (·.shape = .pointer target) ⟨.pointer target, d.name ++ "*"⟩ = made := by
  simp only [pointerTo, bind, Except.bind, pure, Except.pure]
  cases hget : t.get target with
  | error e =>
    simp only [reduceCtorEq, false_iff]
    rintro ⟨d, hd, -⟩
    cases hget.symm.trans (get_eq_ok_iff.mpr hd)
  | ok d => simp [get_eq_ok_iff.mp hget]

/-- A value type gets a nullable type of its own. -/
theorem nullableOf_of_value {inner : TypeId} (hd : t.get? inner = some d)
    (hvalue : d.shape = .value) :
    t.nullableOf inner =
      .ok (t.findOrAdd (·.shape = .nullable inner) ⟨.nullable inner, d.name ++ "?"⟩) := by
  simp [nullableOf, get_eq_ok_iff.mpr hd, bind, Except.bind, hvalue, pure, Except.pure]

/-- Any other type is its own nullable type. -/
theorem nullableOf_of_other {inner : TypeId} (hd : t.get? inner = some d)
    (hother : d.shape ≠ .value) : t.nullableOf inner = .ok (inner, t) := by
  obtain ⟨made, hmade⟩ := nullableOf_of_has ⟨d, hd⟩
  rcases nullableOf_cases hmade with ⟨e, he, hvalue, -⟩ | ⟨-, -, -, rfl⟩
  · cases hd.symm.trans he
    exact absurd hvalue hother
  · exact hmade

/-- A type is declared where its name is free, and it is a new one. -/
theorem declare_eq_ok_iff {shape : TypeShape} {name : String} {made : TypeId × TypeTable} :
    t.declare shape name = .ok made ↔ t.lookup name = none ∧ t.add ⟨shape, name⟩ = made := by
  unfold declare
  cases t.lookup name <;> simp

/-- An optional result is there where the result is no error. -/
theorem toOption_eq_some_iff {ε α : Type} {x : Except ε α} {a : α} :
    x.toOption = some a ↔ x = .ok a := by
  cases x <;> simp [Except.toOption]

/-- A request that gives a type leaves the table that it made. -/
theorem after_of_request? {made : TypeId × TypeTable} (h : t.request? op = some made) :
    t.after op = made.2 := by
  cases op with
  | ensure | ensureError | addAnonymous =>
      cases h
      rfl
  | declareClass | declareStruct | pointerTo | nullableOf =>
      simp only [after, left, toOption_eq_some_iff.mp h]
  | builtins | defineFields => cases h

/-- A request that gives no type changes none, unless it is the one for every builtin type. -/
theorem defs_of_request?_eq_none (h : t.request? op = none) (hop : op ≠ .builtins) :
    (t.after op).defs = t.defs := by
  cases op with
  | ensure | ensureError | addAnonymous => cases h
  | declareClass name =>
      cases hdeclare : t.declareClass name <;> simp_all [request?, after, left, Except.toOption]
  | declareStruct name restricted =>
      cases hdeclare : t.declareStruct name restricted <;>
        simp_all [request?, after, left, Except.toOption]
  | pointerTo target =>
      cases hpointer : t.pointerTo target <;> simp_all [request?, after, left, Except.toOption]
  | nullableOf inner =>
      cases hnullable : t.nullableOf inner <;> simp_all [request?, after, left, Except.toOption]
  | builtins => exact absurd rfl hop
  | defineFields => rfl

/-- A request gives a type that is there and changes nothing, or it gives the next type. -/
theorem request?_cases {made : TypeId × TypeTable} (h : t.request? op = some made) :
    (t.Has made.1 ∧ made.2 = t) ∨ ∃ d, t.add d = made := by
  have hsearch : ∀ (p : TypeDef → Bool) (d : TypeDef), t.findOrAdd p d = made →
      (t.Has made.1 ∧ made.2 = t) ∨ ∃ d, t.add d = made := by
    intro p d hmade
    rcases t.findOrAdd_cases p d with ⟨id, e, he, -, hfound⟩ | ⟨-, hadded⟩
    · obtain rfl : (id, t) = made := hfound.symm.trans hmade
      exact .inl ⟨⟨e, he⟩, rfl⟩
    · exact .inr ⟨d, hadded.symm.trans hmade⟩
  cases op with
  | ensure b => exact hsearch _ ⟨b.shape, b.name⟩ (Option.some.inj h)
  | ensureError name => exact hsearch _ ⟨.error, name⟩ (Option.some.inj h)
  | declareClass | declareStruct =>
      exact .inr ⟨_, (declare_eq_ok_iff.mp (toOption_eq_some_iff.mp h)).2⟩
  | pointerTo target =>
      obtain ⟨d, -, hmade⟩ := pointerTo_eq_ok_iff.mp (toOption_eq_some_iff.mp h)
      exact hsearch _ _ hmade
  | nullableOf inner =>
      rcases nullableOf_cases (toOption_eq_some_iff.mp h) with ⟨d, -, -, hmade⟩ | ⟨d, hd, -, rfl⟩
      · exact hsearch _ _ hmade.symm
      · exact .inl ⟨⟨d, hd⟩, rfl⟩
  | addAnonymous name fields => exact .inr ⟨_, Option.some.inj h⟩
  | builtins | defineFields => cases h

/-- A type that is given is made of what was asked for. -/
theorem answered_of_request? {made : TypeId × TypeTable} (h : t.request? op = some made) :
    Answered made.2 made.1 op := by
  cases op with
  | ensure b =>
      obtain rfl := Option.some.inj h
      obtain ⟨d, hd, hfound⟩ := t.findOrAdd_spec (p := fun d => d.shape.isNamed && d.name == b.name)
        (d := ⟨b.shape, b.name⟩) (by cases b <;> simp [Builtin.shape, TypeShape.isNamed])
      exact ⟨d, hd, by simpa using hfound⟩
  | ensureError name =>
      obtain rfl := Option.some.inj h
      have hsearch : (TypeShape.error.isError && name == name) = true := by simp [TypeShape.isError]
      obtain ⟨d, hd, hfound⟩ := t.findOrAdd_spec
        (p := fun d => d.shape.isError && d.name == name) (d := ⟨.error, name⟩) hsearch
      rwa [eq_error_of_search hfound] at hd
  | declareClass name =>
      obtain ⟨-, rfl⟩ := declare_eq_ok_iff.mp (toOption_eq_some_iff.mp h)
      exact ⟨_, get?_add _ _, rfl, rfl⟩
  | declareStruct name restricted =>
      obtain ⟨-, rfl⟩ := declare_eq_ok_iff.mp (toOption_eq_some_iff.mp h)
      exact ⟨_, get?_add _ _, by cases restricted <;> rfl, rfl⟩
  | pointerTo target =>
      obtain ⟨d, -, rfl⟩ := pointerTo_eq_ok_iff.mp (toOption_eq_some_iff.mp h)
      obtain ⟨⟨shape, shown⟩, hd, hfound⟩ := t.findOrAdd_spec
        (p := fun d => d.shape = .pointer target) (d := ⟨.pointer target, d.name ++ "*"⟩) (by simp)
      obtain rfl : shape = .pointer target := by simpa using hfound
      exact ⟨shown, hd⟩
  | nullableOf inner =>
      have hok := toOption_eq_some_iff.mp h
      have hdefs : t.defs <+: made.2.defs := after_of_request? h ▸ t.defs_after (.nullableOf inner)
      rcases nullableOf_cases hok with ⟨d, hd, hvalue, -⟩ | ⟨d, hd, hother, rfl⟩
      · exact ⟨d, get?_mono hdefs hd, .inl ⟨hvalue, get?_nullableOf hd hvalue hok⟩⟩
      · exact ⟨d, hd, .inr ⟨hother, rfl⟩⟩
  | addAnonymous name fields =>
      obtain rfl := Option.some.inj h
      exact get?_add _ _
  | builtins | defineFields => cases h

/-! ## Regular tables -/

/-- A refused request leaves a regular table regular. -/
theorem Regular.left {ε : Type} {x : Except ε (TypeId × TypeTable)} (h : t.Regular)
    (hmade : ∀ made, x = .ok made → made.2.Regular) : (t.left x).Regular := by
  cases x with
  | error e => exact h
  | ok made => exact hmade made rfl

/-- An operation keeps a table regular. -/
theorem Regular.after (h : t.Regular) (op : Operation) : (t.after op).Regular := by
  cases op with
  | ensure b => exact h.ensure b
  | builtins => exact h.withBuiltins
  | ensureError name => exact h.ensureError name
  | declareClass name => exact h.left fun _ hmade => h.declare rfl hmade
  | declareStruct name restricted =>
      exact h.left fun _ hmade => h.declare (by cases restricted <;> rfl) hmade
  | defineFields id fields => exact h.defineFields id fields
  | pointerTo target => exact h.left fun _ hmade => h.pointerTo hmade
  | nullableOf inner => exact h.left fun _ hmade => h.nullableOf hmade
  | addAnonymous name fields => exact h.addAnonymous name fields

/-- A type is found by a property that only types made alike have. -/
theorem Regular.find?_eq (h : t.Regular)
    (halike : ∀ d e : TypeDef, p d = true → p e = true → d.MadeAlike e)
    (hget : t.get? id = some d) (hd : p d = true) : t.find? p = some id := by
  cases hfind : t.find? p with
  | none =>
      rw [eq_false_of_find?_eq_none hfind hget] at hd
      cases hd
  | some id' =>
      obtain ⟨e, he, hp⟩ := find?_spec hfind
      rw [h.apart id' id e d he hget (halike e d hp hd)]

/-- A type with a name in source text is found by it. -/
theorem Regular.lookup_eq (h : t.Regular) (hget : t.get? id = some d)
    (hnamed : d.shape.isNamed = true) : t.lookup d.name = some id := by
  refine h.find?_eq ?_ hget (by simp [hnamed])
  intro d e hd he
  simp only [Bool.and_eq_true, beq_iff_eq] at hd he
  exact .named d e hd.1 he.1 (hd.2.trans he.2.symm)

/-- An error type is found by its name. -/
theorem Regular.find?_error (h : t.Regular) {name : String}
    (hget : t.get? id = some ⟨.error, name⟩) :
    t.find? (fun d => d.shape.isError && d.name == name) = some id := by
  refine h.find?_eq ?_ hget (by simp [TypeShape.isError])
  intro d e hd he
  rw [eq_error_of_search hd, eq_error_of_search he]
  exact .error name

/-- A pointer type is found by what it points to. -/
theorem Regular.find?_pointer (h : t.Regular) {target : TypeId} {name : String}
    (hget : t.get? id = some ⟨.pointer target, name⟩) :
    t.find? (·.shape = .pointer target) = some id := by
  refine h.find?_eq ?_ hget (by simp)
  rintro ⟨shape, shown⟩ ⟨shape', shown'⟩ hd he
  obtain rfl : shape = .pointer target := by simpa using hd
  obtain rfl : shape' = .pointer target := by simpa using he
  exact .pointer target shown shown'

/-- A nullable type is found by the type that it adds null to. -/
theorem Regular.find?_nullable (h : t.Regular) {inner : TypeId} {name : String}
    (hget : t.get? id = some ⟨.nullable inner, name⟩) :
    t.find? (·.shape = .nullable inner) = some id := by
  refine h.find?_eq ?_ hget (by simp)
  rintro ⟨shape, shown⟩ ⟨shape', shown'⟩ hd he
  obtain rfl : shape = .nullable inner := by simpa using hd
  obtain rfl : shape' = .nullable inner := by simpa using he
  exact .nullable inner shown shown'

/-- What is found is not added. -/
theorem findOrAdd_of_find? (h : t.find? p = some id) (d : TypeDef) :
    t.findOrAdd p d = (id, t) := by
  rw [findOrAdd, h]

/-- A type that has been given is found when it is asked for again. -/
theorem Regular.request?_again (h : t.Regular) (hop : op.isCached = true)
    (hid : Answered t id op) : t.request? op = some (id, t) := by
  cases op with
  | ensure b =>
      obtain ⟨d, hd, hnamed, hname⟩ := hid
      have hlookup : t.lookup b.name = some id := hname ▸ h.lookup_eq hd hnamed
      exact congrArg some (findOrAdd_of_find? hlookup _)
  | ensureError name =>
      exact congrArg some (findOrAdd_of_find? (h.find?_error hid) _)
  | pointerTo target =>
      obtain ⟨name, hget⟩ := hid
      obtain ⟨d, hd, -⟩ := h.pointers id target name hget
      refine toOption_eq_some_iff.mpr (pointerTo_eq_ok_iff.mpr ⟨d, hd, ?_⟩)
      exact findOrAdd_of_find? (h.find?_pointer hget) _
  | nullableOf inner =>
      apply toOption_eq_some_iff.mpr
      obtain ⟨d, hd, ⟨hvalue, name, hget⟩ | ⟨hother, rfl⟩⟩ := hid
      · rw [nullableOf_of_value hd hvalue, findOrAdd_of_find? (h.find?_nullable hget)]
      · exact nullableOf_of_other hd hother
  | builtins | declareClass | declareStruct | defineFields | addAnonymous => cases hop

/-! ## Runs -/

/-- What every operation keeps: the table is regular, and each type that was given is made of what
was asked for. -/
structure Kept (log : List (Operation × TypeId)) (t : TypeTable) : Prop where
  regular : t.Regular
  answered : ∀ entry ∈ log, Answered t entry.2 entry.1

/-- An empty table has given nothing. -/
theorem Kept.empty : Kept [] {} where
  regular := .empty
  answered := by simp

/-- An operation keeps what was given, and what it gives is made of what was asked for. -/
theorem Kept.after {log : List (Operation × TypeId)} (h : t.Kept log) (op : Operation) :
    (t.after op).Kept (log ++ ((t.answer? op).map (op, ·)).toList) where
  regular := h.regular.after op
  answered := by
    intro entry hentry
    rcases List.mem_append.mp hentry with hold | hnew
    · exact Answered.mono (h.answered entry hold) (t.defs_after op)
    · simp only [answer?, Option.map_map, Option.mem_toList, Option.map_eq_some_iff] at hnew
      obtain ⟨made, hmade, rfl⟩ := hnew
      rw [after_of_request? hmade]
      exact answered_of_request? hmade

/-- Any run keeps what was given. -/
theorem Kept.run {log : List (Operation × TypeId)} (h : t.Kept log) (ops : List Operation) :
    (t.run ops).Kept (log ++ t.answers ops) := by
  induction ops generalizing t log with
  | nil => simpa [TypeTable.run, answers] using h
  | cons op ops ih => simpa [TypeTable.run, answers] using ih (h.after op)

/-- The ids in use are those from 1 to the number of types. -/
theorem has_iff_number (t : TypeTable) (id : TypeId) :
    t.Has id ↔ 1 ≤ id.number ∧ id.number ≤ t.size := by
  constructor
  · intro h
    refine ⟨?_, h.number_le⟩
    obtain ⟨d, hd⟩ := h
    obtain ⟨i, rfl, -⟩ := get?_eq_some_iff.mp hd
    show 1 ≤ (i : Int) + 1
    omega
  · obtain ⟨number⟩ := id
    intro ⟨hpos, hle⟩
    simp only [size] at hpos hle
    have hlt : (number - 1).toNat < t.defs.length := by omega
    refine ⟨t.defs[(number - 1).toNat], get?_eq_some_iff.mpr ⟨(number - 1).toNat, ?_, ?_⟩⟩
    · show TypeId.mk number = ⟨(number - 1).toNat + 1⟩
      congr 1
      omega
    · exact List.getElem?_eq_getElem hlt

/-- What a table is like after any run of operations that gave these types. -/
structure Canonical (log : List (Operation × TypeId)) (t : TypeTable) : Prop where
  ids : ∀ id, t.Has id ↔ 1 ≤ id.number ∧ id.number ≤ t.size
  /-- A request gives a type that is there and changes nothing, or it gives the next id to one more
  type. -/
  order : ∀ op id, t.answer? op = some id →
    (t.Has id ∧ t.after op = t) ∨
      (id.number = t.size + 1 ∧ ∃ d, (t.after op).defs = t.defs ++ [d])
  /-- A request that gives no type makes none, but for the one that asks for every builtin type. -/
  refused : ∀ op, op ≠ .builtins → t.answer? op = none → (t.after op).defs = t.defs
  builtins : t.after .builtins = t.run (Builtin.all.map .ensure)
  kept : ∀ ops id d, t.get? id = some d → (t.run ops).get? id = some d
  lookup : ∀ name id, t.lookup name = some id →
    ∃ d, t.get? id = some d ∧ d.shape.isNamed = true ∧ d.name = name
  names : ∀ name name' id id', t.lookup name = some id → t.lookup name' = some id' →
    name ≠ name' → id ≠ id'
  pointer : ∀ a x, (.pointerTo a, x) ∈ log → ∃ name, t.get? x = some ⟨.pointer a, name⟩
  pointers : ∀ a b x y, (.pointerTo a, x) ∈ log → (.pointerTo b, y) ∈ log → (x = y ↔ a = b)
  error : ∀ name x, (.ensureError name, x) ∈ log → t.get? x = some ⟨.error, name⟩
  errors : ∀ name name' x y, (.ensureError name, x) ∈ log → (.ensureError name', y) ∈ log →
    (x = y ↔ name = name')
  /-- Error types are no types of source text. -/
  hidden : ∀ id name, t.get? id = some ⟨.error, name⟩ → ∀ word, t.lookup word ≠ some id
  nullable : ∀ a x, (.nullableOf a, x) ∈ log → ∃ d, t.get? a = some d ∧
    (d.shape ≠ .value → x = a) ∧
      (d.shape = .value → ∃ name, t.get? x = some ⟨.nullable a, name⟩)
  nullables : ∀ a b x y d e, (.nullableOf a, x) ∈ log → (.nullableOf b, y) ∈ log →
    t.get? a = some d → d.shape = .value → t.get? b = some e → e.shape = .value → (x = y ↔ a = b)
  /-- Asking for the nullable type of what that request gives changes nothing. -/
  twice : ∀ a x, (.nullableOf a, x) ∈ log → t.nullableOf x = .ok (x, t)
  /-- Pointers and nullable types are given for every type. -/
  given : ∀ a, t.Has a → (t.answer? (.pointerTo a)).isSome ∧ (t.answer? (.nullableOf a)).isSome
  /-- A type that was given once is given whenever it is asked for. -/
  again : ∀ op id, (op, id) ∈ log → op.isCached = true →
    t.answer? op = some id ∧ t.after op = t

/-- Two types of one id have one definition. -/
theorem eq_of_get? {e : TypeDef} {id' : TypeId} (hd : t.get? id = some d) (he : t.get? id' = some e)
    (hid : id = id') : d = e := by
  subst hid
  exact Option.some.inj (hd.symm.trans he)

/-- The next type is numbered one higher than there are types. -/
theorem order_of_add {u : TypeTable} (h : t.add d = (id, u)) :
    id.number = t.size + 1 ∧ u.defs = t.defs ++ [d] := by
  cases h
  exact ⟨rfl, rfl⟩

/-- The nullable type of a value type is one of its own. -/
theorem Kept.nullable_of_value {log : List (Operation × TypeId)} (h : t.Kept log) {inner : TypeId}
    (hid : (.nullableOf inner, id) ∈ log) (hd : t.get? inner = some d) (hvalue : d.shape = .value) :
    ∃ name, t.get? id = some ⟨.nullable inner, name⟩ := by
  obtain ⟨e, he, ⟨-, hget⟩ | ⟨hother, -⟩⟩ := h.answered _ hid
  · exact hget
  · cases hd.symm.trans he
    exact absurd hvalue hother

/-- What has been given is canonical. -/
theorem Kept.canonical {log : List (Operation × TypeId)} (h : t.Kept log) : Canonical log t where
  ids := t.has_iff_number
  order op id hanswer := by
    obtain ⟨made, hmade, rfl⟩ := Option.map_eq_some_iff.mp hanswer
    rw [after_of_request? hmade]
    rcases request?_cases hmade with hold | ⟨d, hnew⟩
    · exact .inl hold
    · obtain ⟨hnumber, hdefs⟩ := order_of_add hnew
      exact .inr ⟨hnumber, d, hdefs⟩
  refused op hop hanswer := defs_of_request?_eq_none (Option.map_eq_none_iff.mp hanswer) hop
  builtins := rfl
  kept ops id d := get?_mono (t.defs_run ops)
  lookup name id := lookup_spec
  names name name' id id' hid hid' hne heq := by
    obtain ⟨d, hd, -, rfl⟩ := lookup_spec hid
    obtain ⟨e, he, -, rfl⟩ := lookup_spec hid'
    exact hne (congrArg TypeDef.name (eq_of_get? hd he heq))
  pointer a x hx := h.answered _ hx
  pointers a b x y hx hy := by
    obtain ⟨name, hgetx⟩ := h.answered _ hx
    obtain ⟨name', hgety⟩ := h.answered _ hy
    constructor
    · intro heq
      cases eq_of_get? hgetx hgety heq
      rfl
    · rintro rfl
      -- Two pointers to one type are equal only because regular tables keep no type twice.
      exact h.regular.apart x y _ _ hgetx hgety (.pointer a name name')
  error name x hx := h.answered _ hx
  errors name name' x y hx hy := by
    have hgetx : t.get? x = some ⟨.error, name⟩ := h.answered _ hx
    have hgety : t.get? y = some ⟨.error, name'⟩ := h.answered _ hy
    constructor
    · intro heq
      cases eq_of_get? hgetx hgety heq
      rfl
    · rintro rfl
      exact h.regular.apart x y _ _ hgetx hgety (.error name)
  hidden id name hget word hword := by
    obtain ⟨d, hd, hnamed, -⟩ := lookup_spec hword
    cases hget.symm.trans hd
    cases hnamed
  nullable a x hx := by
    obtain ⟨d, hd, ⟨hvalue, hget⟩ | ⟨hother, heq⟩⟩ := h.answered _ hx
    · exact ⟨d, hd, fun hother => absurd hvalue hother, fun _ => hget⟩
    · exact ⟨d, hd, fun _ => heq, fun hvalue => absurd hvalue hother⟩
  nullables a b x y d e hx hy hd hvalue he hvalue' := by
    obtain ⟨name, hgetx⟩ := h.nullable_of_value hx hd hvalue
    obtain ⟨name', hgety⟩ := h.nullable_of_value hy he hvalue'
    constructor
    · intro heq
      cases eq_of_get? hgetx hgety heq
      rfl
    · rintro rfl
      exact h.regular.apart x y _ _ hgetx hgety (.nullable a name name')
  twice a x hx := by
    -- A nullable type is no value type either, so it is its own nullable type.
    obtain ⟨d, hd, ⟨-, name, hget⟩ | ⟨hother, heq⟩⟩ := h.answered _ hx
    · exact nullableOf_of_other hget (by simp)
    · obtain rfl : x = a := heq
      exact nullableOf_of_other hd hother
  given a ha := by
    obtain ⟨d, hd⟩ := ha
    obtain ⟨made, hmade⟩ := nullableOf_of_has ⟨d, hd⟩
    have hpointer := pointerTo_eq_ok_iff.mpr ⟨d, hd, rfl⟩
    constructor
    · simp [answer?, request?, hpointer, Except.toOption]
    · simp [answer?, request?, hmade, Except.toOption]
  again op id hid hop := by
    -- The entry found the first time is the one that the search finds again.
    have hagain := h.regular.request?_again hop (h.answered _ hid)
    exact ⟨by rw [answer?, hagain]; rfl, after_of_request? hagain⟩

/-- Whatever a new table is used for, its ids are given out in order and keep their types, a name
stands for one type, and asking for the same type again gives the same id. -/
theorem run_canonical (ops : List Operation) : Canonical (answers {} ops) (run {} ops) := by
  have hkept := Kept.empty.run ops
  exact hkept.canonical

end AnonymousObjects.TypeTable
