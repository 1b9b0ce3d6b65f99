import AnonymousObjects.Proofs.Types.Canonicity
import AnonymousObjects.Proofs.Types.Interning

/-!
# Refused requests change nothing

`Store.after` leaves a store as it is where a request is refused. Here is the reason: an `Attempt`
works on the store step by step, and what it has written before it fails stays written. The attempts
of this file look things up, check and write in the order in which a host sees it, and
`Store.attempt_eq` says that each gives the answer of the definition that runs and leaves the store
that `Store.after` says. For a pointer type, which is looked for before its target is checked, and
for an anonymous type, whose key is looked for before its fields are, this rests on what every
operation keeps: nothing is found that was made of a type that does not exist (`Store.Grounded`).
`Store.attemptAll_atomic` is about any run from the empty store on.
-/

namespace AnonymousObjects

/-- Why a request is refused. -/
inductive Objection where
  | declared (e : AlreadyDeclared)
  | unknown (e : UnknownType)
deriving DecidableEq, Repr

/-- What a request that is not refused gives. -/
inductive Answer where
  | done
  | type (id : TypeId)
  | anonymous (type : AnonymousType)
deriving DecidableEq, Repr

/-- A computation that changes a store step by step and may be refused on the way. The store is that
of the last step in either case. -/
abbrev Attempt (α : Type) := ExceptT Objection (StateM Store) α

namespace Attempt

variable {α β : Type} {x : Attempt α} {f : α → Attempt β} {s t : Store} {a : α}

/-- Looks something up. -/
def look (f : Store → α) : Attempt α := fun s => (.ok (f s), s)

/-- Writes to the store. -/
def write (f : Store → α × Store) : Attempt α := fun s => (.ok (f s).1, (f s).2)

/-- Writes to the table. -/
def writeTable (f : TypeTable → α × TypeTable) : Attempt α :=
  write fun s => ((f s.table).1, { s with table := (f s.table).2 })

/-- The definition of a type. -/
def definition (id : TypeId) : Attempt TypeDef := fun s =>
  match s.table.get id with
  | .ok d => (.ok d, s)
  | .error e => (.error (.unknown e), s)

/-- Refuses. -/
def refuse (r : Objection) : Attempt α := fun s => (.error r, s)

/-- What runs after an attempt runs on the store that it leaves. -/
theorem bind_apply (x : Attempt α) (f : α → Attempt β) (s : Store) :
    (x >>= f) s = ExceptT.bindCont f (x s).1 (x s).2 := rfl

/-- What runs after an attempt that gives something runs with it. -/
theorem bind_of_ok (h : x s = (.ok a, t)) : (x >>= f) s = f a t := by
  rw [bind_apply, h]
  rfl

/-- Nothing runs after an attempt that is refused. -/
theorem bind_of_error {r : Objection} (h : x s = (.error r, t)) : (x >>= f) s = (.error r, t) := by
  rw [bind_apply, h]
  rfl

/-- A function of a result changes nothing more. -/
theorem map_apply (g : α → β) (x : Attempt α) (s : Store) :
    (g <$> x : Attempt β) s = ((x s).1.map g, (x s).2) := by
  show ExceptT.bindCont (fun a => pure (g a) : α → Attempt β) (x s).1 (x s).2 = _
  cases (x s).1 <;> rfl

/-- What runs after a look-up runs with what was found. -/
@[simp] theorem look_bind (g : Store → α) (s : Store) : (look g >>= f) s = f (g s) s := rfl

/-- What runs after a write runs on what was written. -/
@[simp] theorem write_bind (g : Store → α × Store) (s : Store) :
    (write g >>= f) s = f (g s).1 (g s).2 := rfl

/-- The definition of a type that exists. -/
theorem definition_of_some {id : TypeId} {d : TypeDef} (h : s.table.get? id = some d) :
    definition id s = (.ok d, s) := by
  simp [definition, TypeTable.get_eq_ok_iff.mpr h]

/-- There is no definition of a type that does not exist. -/
theorem definition_of_none {id : TypeId} (h : s.table.get? id = none) :
    definition id s = (.error (.unknown ⟨id⟩), s) := by
  simp [definition, TypeTable.get, h]

end Attempt

open Attempt (look write writeTable definition refuse)

/-! ## Requests step by step -/

namespace TypeTable

/-- Declares a type. -/
def declareAttempt (shape : TypeShape) (name : String) : Attempt TypeId := do
  match ← look (·.table.lookup name) with
  | some _ => refuse (.declared ⟨name⟩)
  | none => writeTable (·.add ⟨shape, name⟩)

/-- The type of pointers to a type. It is looked for before its target is. -/
def pointerAttempt (target : TypeId) : Attempt TypeId := do
  match ← look (·.table.find? (·.shape = .pointer target)) with
  | some id => pure id
  | none => do
    let d ← definition target
    writeTable (·.add ⟨.pointer target, d.name ++ "*"⟩)

/-- The nullable type of a type. -/
def nullableAttempt (inner : TypeId) : Attempt TypeId := do
  let d ← definition inner
  match d.shape with
  | .value => do
    match ← look (·.table.find? (·.shape = .nullable inner)) with
    | some id => pure id
    | none => do
      let d ← definition inner
      writeTable (·.add ⟨.nullable inner, d.name ++ "?"⟩)
  | _ => pure inner

/-- A request to the table. -/
def attempt : Operation → Attempt Answer
  | .ensure b => .type <$> writeTable (·.ensure b)
  | .builtins => writeTable fun t => (.done, t.withBuiltins)
  | .ensureError name => .type <$> writeTable (·.ensureError name)
  | .declareClass name => .type <$> declareAttempt .reference name
  | .declareStruct name restricted =>
    .type <$> declareAttempt (if restricted then .restricted else .value) name
  | .defineFields id fields => writeTable fun t => (.done, t.defineFields id fields)
  | .pointerTo target => .type <$> pointerAttempt target
  | .nullableOf inner => .type <$> nullableAttempt inner
  | .addAnonymous name fields => .type <$> writeTable (·.addAnonymous name fields)

end TypeTable

namespace Store

/-- Checks that the types of a key exist. -/
def checkAttempt : AnonymousKey → Attempt Unit
  | [] => pure ()
  | (_, id) :: rest => do
    let _ ← definition id
    checkAttempt rest

/-- The display names of the types of a key. -/
def showAttempt : AnonymousKey → Attempt (List String)
  | [] => pure []
  | (_, id) :: rest => do
    let d ← definition id
    let others ← showAttempt rest
    pure (d.name :: others)

/-- A new anonymous type. Its template and its definition are written before the type itself, and
each type in the signatures of its methods where it comes up. -/
def createAttempt (key : AnonymousKey) (span : Span) : Attempt AnonymousType := do
  checkAttempt key
  let template ← write fun s =>
    let (template, registry) := s.registry.templateFor (key.map (·.1))
    (template, { s with registry := registry })
  let shown ← showAttempt key
  let id ← writeTable (·.addAnonymous (displayName (key.map (·.1)) shown) (key.map (·.2)))
  let object ← writeTable (·.ensure .object)
  let bool ← writeTable (·.ensure .bool)
  let int ← writeTable (·.ensure .int)
  let string ← writeTable (·.ensure .string)
  let type : AnonymousType :=
    { template := template, id := id, span := span, properties := properties id 0 key
      constructor := ⟨key.map (·.2), id⟩
      methods := [⟨"Equals", [object], bool, id⟩, ⟨"GetHashCode", [], int, id⟩,
        ⟨"ToString", [], string, id⟩] }
  write fun s =>
    (type, { s with registry := { s.registry with types := s.registry.types ++ [type] } })

/-- The anonymous type of a list of fields. It is looked for before the types of the fields are. -/
def internAttempt (fields : List AnonymousField) (span : Span) : Attempt AnonymousType := do
  match ← look (·.registry.find? (.ofFields fields)) with
  | some type => pure type
  | none => createAttempt (.ofFields fields) span

/-- A request to a store. -/
def attempt : Operation → Attempt Answer
  | .table op => TypeTable.attempt op
  | .intern fields span => .anonymous <$> internAttempt fields span

/-- Any number of requests, with the answer to each. -/
def attemptAll : List Operation → StateM Store (List (Except Objection Answer))
  | [] => fun s => ([], s)
  | op :: ops => fun s =>
    let later := attemptAll ops (attempt op s).2
    ((attempt op s).1 :: later.1, later.2)

end Store

/-! ## The answers of the definitions that run -/

/-- The answer of a request that makes a type. -/
def Answer.ofMade {ε : Type} (objection : ε → Objection) :
    Except ε (TypeId × TypeTable) → Except Objection Answer
  | .ok made => .ok (.type made.1)
  | .error e => .error (objection e)

/-- The answer to a request to the table. -/
def TypeTable.answer (t : TypeTable) : Operation → Except Objection Answer
  | .ensure b => .ok (.type (t.ensure b).1)
  | .builtins | .defineFields _ _ => .ok .done
  | .ensureError name => .ok (.type (t.ensureError name).1)
  | .declareClass name => Answer.ofMade .declared (t.declareClass name)
  | .declareStruct name restricted => Answer.ofMade .declared (t.declareStruct name restricted)
  | .pointerTo target => Answer.ofMade .unknown (t.pointerTo target)
  | .nullableOf inner => Answer.ofMade .unknown (t.nullableOf inner)
  | .addAnonymous name fields => .ok (.type (t.addAnonymous name fields).1)

namespace Store

/-- The answer to a request to a store. -/
def answer (s : Store) : Operation → Except Objection Answer
  | .table op => s.table.answer op
  | .intern fields span =>
    match s.intern fields span with
    | .ok made => .ok (.anonymous made.1)
    | .error e => .error (.unknown e)

/-- When a request is refused: the declaration of a type whose name is in use, and whatever is to be
made of a type that does not exist. -/
def Refuses (s : Store) : Operation → Prop
  | .table (.declareClass name) | .table (.declareStruct name _) =>
    ∃ id, s.table.lookup name = some id
  | .table (.pointerTo id) | .table (.nullableOf id) => ¬ s.table.Has id
  | .intern fields _ => ∃ f ∈ fields, ¬ s.table.Has f.type
  | .table (.ensure _) | .table .builtins | .table (.ensureError _) | .table (.defineFields _ _)
  | .table (.addAnonymous _ _) => False

variable {s s' : Store} {key : AnonymousKey} {span : Span} {a : AnonymousType}

/-! ## What every operation keeps -/

/-- Nothing is made of types that do not exist, neither the pointer types of the table nor the
anonymous types of the registry. -/
structure Grounded (s : Store) : Prop where
  regular : s.table.Regular
  known : ∀ a ∈ s.registry.types, ∀ pair ∈ a.key, s.table.Has pair.2

/-- The empty store is grounded. -/
theorem Grounded.empty : Grounded {} where
  regular := .empty
  known := by simp

/-- A type is created for a key of types that exist, and the table gets it and the types in the
signatures of its methods. -/
theorem table_of_create (h : s.create key span = .ok (a, s')) :
    (∀ pair ∈ key, s.table.Has pair.2) ∧
      ∃ name owner, s'.table = (methods (s.table.addAnonymous name (key.map (·.2))).2 owner).2 := by
  simp only [create, bind, Except.bind] at h
  cases hshown : displays s.table key with
  | error e => simp [hshown] at h
  | ok shown =>
      simp only [hshown, pure, Except.pure, Except.ok.injEq, Prod.mk.injEq] at h
      obtain ⟨-, rfl⟩ := h
      refine ⟨has_of_displays hshown, displayName (key.map (·.1)) shown, ?_, ?_⟩
      · exact (s.table.addAnonymous (displayName (key.map (·.1)) shown) (key.map (·.2))).1
      · rfl

/-- The types in the signatures of methods may be asked for. -/
theorem regular_methods {t : TypeTable} (h : t.Regular) (owner : TypeId) :
    (methods t owner).2.Regular :=
  (((h.ensure .object).ensure .bool).ensure .int).ensure .string

/-- A type that is created keeps a store grounded. -/
theorem Grounded.create (h : s.Grounded) (hcreate : s.create key span = .ok (a, s')) :
    s'.Grounded := by
  obtain ⟨hkey, name, owner, htable⟩ := table_of_create hcreate
  have hcreated := created_of_create hcreate
  refine ⟨?_, fun b hb pair hpair => ?_⟩
  · rw [htable]
    exact regular_methods (h.regular.addAnonymous name _) owner
  · have hknown : s.table.Has pair.2 := by
      rcases List.mem_append.mp (hcreated.types ▸ hb) with hold | hnew
      · exact h.known b hold pair hpair
      · rw [List.mem_singleton.mp hnew, hcreated.key_eq] at hpair
        exact hkey pair hpair
    exact hknown.mono hcreated.defs

/-- An operation keeps a store grounded. -/
theorem Grounded.after (h : s.Grounded) (op : Operation) : (s.after op).Grounded := by
  cases op with
  | table op =>
      exact ⟨h.regular.after op, fun a ha pair hpair =>
        (h.known a ha pair hpair).mono (s.table.defs_after op)⟩
  | intern fields span =>
      cases hintern : s.intern fields span with
      | error e => simpa [Store.after, hintern] using h
      | ok made =>
          obtain ⟨a, s'⟩ := made
          simp only [Store.after, hintern]
          cases hfind : s.registry.find? (.ofFields fields) with
          | some b =>
              obtain ⟨-, rfl⟩ : b = a ∧ s = s' := by
                simpa [intern, hfind, pure, Except.pure] using hintern
              exact h
          | none => exact h.create (by simpa [intern, hfind] using hintern)

/-- A key in the registry is one of types that exist. -/
theorem Grounded.has_of_find? (h : s.Grounded) (hfind : s.registry.find? key = some a) :
    ∀ pair ∈ key, s.table.Has pair.2 := by
  have hkey : a.key = key := by simpa using List.find?_some hfind
  exact hkey ▸ h.known a (List.mem_of_find?_eq_some hfind)

end Store

/-! ## Attempts and the definitions that run -/

namespace TypeTable

variable {s : Store} {ε : Type} {objection : ε → Objection}

/-- The answer and the store of a request that makes a type, or else changes nothing. -/
def settled (s : Store) (objection : ε → Objection) :
    Except ε (TypeId × TypeTable) → Except Objection TypeId × Store
  | .ok made => (.ok made.1, { s with table := made.2 })
  | .error e => (.error (objection e), s)

/-- An answer that is a type comes with the same store. -/
theorem map_of_settled {x : Attempt TypeId} {made : Except ε (TypeId × TypeTable)}
    (h : x s = settled s objection made) :
    (Answer.type <$> x : Attempt Answer) s =
      (Answer.ofMade objection made, { s with table := s.table.left made }) := by
  rw [Attempt.map_apply, h]
  cases made <;> rfl

/-- A declaration looks for its name before it writes, and cannot fail after that. -/
theorem declareAttempt_eq (shape : TypeShape) (name : String) (s : Store) :
    declareAttempt shape name s = settled s .declared (s.table.declare shape name) := by
  unfold declareAttempt declare
  rw [Attempt.look_bind]
  cases s.table.lookup name <;> rfl

/-- What is found without a look at the target is what is found for a target that exists. -/
theorem pointerAttempt_eq (h : s.table.Regular) (target : TypeId) :
    pointerAttempt target s = settled s .unknown (s.table.pointerTo target) := by
  unfold pointerAttempt
  rw [Attempt.look_bind]
  cases hfind : s.table.find? (·.shape = .pointer target) with
  | some id =>
      obtain ⟨⟨shape, name⟩, hget, hshape⟩ := find?_spec hfind
      obtain rfl : shape = .pointer target := by simpa using hshape
      obtain ⟨d, hd, -⟩ := h.pointers id target name hget
      rw [pointerTo_eq_ok_iff.mpr ⟨d, hd, findOrAdd_of_find? hfind _⟩]
      rfl
  | none =>
      cases hd : s.table.get? target with
      | none =>
          simp only [Attempt.bind_of_error (Attempt.definition_of_none hd)]
          simp [pointerTo, get, hd, settled, bind, Except.bind]
      | some d =>
          have hadd : s.table.findOrAdd (·.shape = .pointer target)
              ⟨.pointer target, d.name ++ "*"⟩ = s.table.add ⟨.pointer target, d.name ++ "*"⟩ := by
            rw [findOrAdd, hfind]
          simp only [Attempt.bind_of_ok (Attempt.definition_of_some hd)]
          rw [pointerTo_eq_ok_iff.mpr ⟨d, hd, hadd⟩]
          rfl

/-- A nullable type is looked for only when the type inside it exists. -/
theorem nullableAttempt_eq (inner : TypeId) (s : Store) :
    nullableAttempt inner s = settled s .unknown (s.table.nullableOf inner) := by
  unfold nullableAttempt
  cases hd : s.table.get? inner with
  | none =>
      rw [Attempt.bind_of_error (Attempt.definition_of_none hd)]
      simp [nullableOf, get, hd, settled, bind, Except.bind]
  | some d =>
      rw [Attempt.bind_of_ok (Attempt.definition_of_some hd)]
      obtain ⟨shape, shown⟩ := d
      cases shape with
      | value =>
          rw [nullableOf_of_value hd rfl, findOrAdd]
          dsimp only
          rw [Attempt.look_bind]
          cases s.table.find? (·.shape = .nullable inner) with
          | some id => rfl
          | none =>
              simp only [Attempt.bind_of_ok (Attempt.definition_of_some hd)]
              rfl
      | _ =>
          rw [nullableOf_of_other hd (by simp)]
          rfl

/-- A request to a table gives the answer of the definition that runs and leaves the same table. -/
theorem attempt_eq (h : s.table.Regular) (op : Operation) :
    attempt op s = (s.table.answer op, { s with table := s.table.after op }) := by
  cases op with
  | ensure | builtins | ensureError | defineFields | addAnonymous => rfl
  | declareClass name => exact map_of_settled (declareAttempt_eq _ name s)
  | declareStruct name restricted => exact map_of_settled (declareAttempt_eq _ name s)
  | pointerTo target => exact map_of_settled (pointerAttempt_eq h target)
  | nullableOf inner => exact map_of_settled (nullableAttempt_eq inner s)

end TypeTable

namespace Store

variable {s : Store} {key : AnonymousKey}

/-- The types of a key are checked where their names can be shown. -/
theorem checkAttempt_eq (key : AnonymousKey) (s : Store) :
    checkAttempt key s =
      match displays s.table key with
      | .ok _ => (.ok (), s)
      | .error e => (.error (.unknown e), s) := by
  induction key with
  | nil => rfl
  | cons pair rest ih =>
      obtain ⟨name, id⟩ := pair
      unfold checkAttempt
      cases hd : s.table.get? id with
      | none =>
          rw [Attempt.bind_of_error (Attempt.definition_of_none hd)]
          simp [displays, TypeTable.display, TypeTable.get, hd, bind, Except.bind, Functor.map,
            Except.map]
      | some d =>
          rw [Attempt.bind_of_ok (Attempt.definition_of_some hd), ih]
          have hshown := TypeTable.display_eq_ok_iff.mpr ⟨d, hd, rfl⟩
          cases hrest : displays s.table rest <;>
            simp [displays, hshown, hrest, bind, Except.bind, pure, Except.pure]

/-- The names of the types of a key are shown without a write. -/
theorem showAttempt_of_displays {shown : List String} (h : displays s.table key = .ok shown) :
    showAttempt key s = (.ok shown, s) := by
  induction key generalizing shown with
  | nil =>
      cases h
      rfl
  | cons pair rest ih =>
      obtain ⟨name, id⟩ := pair
      obtain ⟨d, others, hd, hothers, rfl⟩ := displays_cons_iff.mp h
      unfold showAttempt
      rw [Attempt.bind_of_ok (Attempt.definition_of_some hd), Attempt.bind_of_ok (ih hothers)]
      rfl

/-- The answer and the store of a request for an anonymous type, or else the store as it was. -/
def settled (s : Store) :
    Except UnknownType (AnonymousType × Store) → Except Objection AnonymousType × Store
  | .ok made => (.ok made.1, made.2)
  | .error e => (.error (.unknown e), s)

/-- Nothing is written before every type of the key has been checked, and nothing can fail after. -/
theorem createAttempt_eq (key : AnonymousKey) (span : Span) (s : Store) :
    createAttempt key span s = settled s (s.create key span) := by
  unfold createAttempt
  cases hshown : displays s.table key with
  | error e =>
      have hcheck : checkAttempt key s = (.error (.unknown e), s) := by
        rw [checkAttempt_eq, hshown]
      rw [Attempt.bind_of_error hcheck]
      simp [create, hshown, settled, bind, Except.bind]
  | ok shown =>
      have hcheck : checkAttempt key s = (.ok (), s) := by rw [checkAttempt_eq, hshown]
      let t : Store := { s with registry := (s.registry.templateFor (key.map (·.1))).2 }
      have hshow : showAttempt key t = (.ok shown, t) := showAttempt_of_displays hshown
      rw [Attempt.bind_of_ok hcheck, Attempt.write_bind, Attempt.bind_of_ok hshow]
      simp only [create, hshown, settled, bind, Except.bind, pure, Except.pure]
      rfl

/-- A key is looked for before its types are checked, and a new type is created after that. -/
theorem internAttempt_eq (fields : List AnonymousField) (span : Span) (s : Store) :
    internAttempt fields span s = settled s (s.intern fields span) := by
  rw [internAttempt, Attempt.look_bind]
  cases hfind : s.registry.find? (.ofFields fields) with
  | some a =>
      simp only [intern, hfind]
      rfl
  | none =>
      simp only [intern, hfind]
      exact createAttempt_eq _ span s

/-- A request gives the answer of the definition that runs and leaves the same store. -/
theorem attempt_eq (h : s.Grounded) (op : Operation) :
    attempt op s = (s.answer op, s.after op) := by
  cases op with
  | table op => exact TypeTable.attempt_eq h.regular op
  | intern fields span =>
      rw [attempt, Attempt.map_apply, internAttempt_eq]
      simp only [answer, after]
      cases s.intern fields span <;> rfl

/-! ## When a request is refused -/

/-- A declaration is refused where its name is in use. -/
theorem declare_refused_iff {t : TypeTable} {shape : TypeShape} {name : String} :
    (∃ e, Answer.ofMade .declared (t.declare shape name) = .error e) ↔
      ∃ id, t.lookup name = some id := by
  unfold TypeTable.declare
  cases t.lookup name <;> simp [Answer.ofMade]

/-- A pointer type is refused where its target does not exist. -/
theorem pointerTo_refused_iff {t : TypeTable} {target : TypeId} :
    (∃ e, Answer.ofMade .unknown (t.pointerTo target) = .error e) ↔ ¬ t.Has target := by
  constructor
  · rintro ⟨e, h⟩ ⟨d, hd⟩
    rw [TypeTable.pointerTo_eq_ok_iff.mpr ⟨d, hd, rfl⟩] at h
    cases h
  · intro h
    cases hmade : t.pointerTo target with
    | error e => exact ⟨.unknown e, rfl⟩
    | ok made =>
        obtain ⟨d, hd, -⟩ := TypeTable.pointerTo_eq_ok_iff.mp hmade
        exact absurd ⟨d, hd⟩ h

/-- A nullable type is refused where the type inside it does not exist. -/
theorem nullableOf_refused_iff {t : TypeTable} {inner : TypeId} :
    (∃ e, Answer.ofMade .unknown (t.nullableOf inner) = .error e) ↔ ¬ t.Has inner := by
  constructor
  · rintro ⟨e, h⟩ hinner
    obtain ⟨made, hmade⟩ := TypeTable.nullableOf_of_has hinner
    rw [hmade] at h
    cases h
  · intro h
    cases hmade : t.nullableOf inner with
    | error e => exact ⟨.unknown e, rfl⟩
    | ok made =>
        rcases TypeTable.nullableOf_cases hmade with ⟨d, hd, -⟩ | ⟨d, hd, -⟩ <;>
          exact absurd ⟨d, hd⟩ h

/-- A request for an anonymous type is refused where a type does not exist, whether its key would
be found or not. -/
theorem Grounded.intern_refused_iff (h : s.Grounded) {fields : List AnonymousField} {span : Span} :
    (∃ e, s.answer (.intern fields span) = .error e) ↔ ∃ f ∈ fields, ¬ s.table.Has f.type := by
  constructor
  · rintro ⟨e, hanswer⟩
    by_contra hall
    push Not at hall
    obtain ⟨a, s', hmade⟩ := intern_of_has hall span
    simp [answer, hmade] at hanswer
  · rintro ⟨f, hf, hunknown⟩
    cases hmade : s.intern fields span with
    | error e => exact ⟨.unknown e, by simp [answer, hmade]⟩
    | ok made =>
        have hpair : (f.name, f.type) ∈ AnonymousKey.ofFields fields := List.mem_map_of_mem hf
        refine absurd ?_ hunknown
        cases hfind : s.registry.find? (.ofFields fields) with
        | some a => exact h.has_of_find? hfind _ hpair
        | none => exact (table_of_create (by simpa [intern, hfind] using hmade)).1 _ hpair

/-- A request is refused exactly where the store says so. -/
theorem Grounded.refused_iff (h : s.Grounded) (op : Operation) :
    (∃ e, s.answer op = .error e) ↔ s.Refuses op := by
  cases op with
  | table op =>
      cases op with
      | declareClass | declareStruct => exact declare_refused_iff
      | pointerTo => exact pointerTo_refused_iff
      | nullableOf => exact nullableOf_refused_iff
      | ensure | builtins | ensureError | defineFields | addAnonymous =>
          simp [answer, TypeTable.answer, Refuses]
  | intern fields span => exact h.intern_refused_iff

/-- A request that is refused leaves the store as it is. -/
theorem after_of_refused {op : Operation} {e : Objection} (h : s.answer op = .error e) :
    s.after op = s := by
  cases op with
  | table op =>
      -- A table that refuses to make a type is left as it is, whatever the objection.
      have hkept : ∀ {ε : Type} {objection : ε → Objection} {made : Except ε (TypeId × TypeTable)},
          Answer.ofMade objection made = .error e → s.table.left made = s.table := by
        intro ε objection made hmade
        cases made with
        | error => rfl
        | ok => cases hmade
      suffices hop : s.table.after op = s.table by simp [after, hop]
      cases op with
      | declareClass | declareStruct | pointerTo | nullableOf => exact hkept h
      | ensure | builtins | ensureError | defineFields | addAnonymous => cases h
  | intern fields span =>
      cases hmade : s.intern fields span with
      | error => simp [after, hmade]
      | ok => simp [answer, hmade] at h

/-! ## Runs -/

/-- Any run keeps a store grounded. -/
theorem Grounded.run (h : s.Grounded) (ops : List Operation) : (s.run ops).Grounded := by
  induction ops generalizing s with
  | nil => exact h
  | cons op ops ih => exact ih (h.after op)

/-- Requests made one after the other leave the store of a run. -/
theorem Grounded.attemptAll_snd (h : s.Grounded) (ops : List Operation) :
    (attemptAll ops s).2 = s.run ops := by
  induction ops generalizing s with
  | nil => rfl
  | cons op ops ih =>
      simp only [attemptAll, attempt_eq h]
      exact ih (h.after op)

/-- Requests may be made in two goes. -/
theorem attemptAll_append (ops more : List Operation) (s : Store) :
    attemptAll (ops ++ more) s =
      ((attemptAll ops s).1 ++ (attemptAll more (attemptAll ops s).2).1,
        (attemptAll more (attemptAll ops s).2).2) := by
  induction ops generalizing s with
  | nil => rfl
  | cons op ops ih => simp [attemptAll, ih]

/-- Whatever has been asked of a new table and a registry on it: each attempt gives the answer of
the definition that runs; a declaration is refused exactly where its name is in use, and a pointer,
a nullable or an anonymous type exactly where it would be made of a type that does not exist; and a
request that is refused leaves the store as it is, so that what is asked later gets the same answers
and leaves the same store as if the request had not been made. -/
theorem attemptAll_atomic (before : List Operation) :
    let s := (attemptAll before {}).2
    s = run {} before ∧ ∀ op,
      attempt op s = (s.answer op, s.after op) ∧
        ((∃ e, (attempt op s).1 = .error e) ↔ s.Refuses op) ∧
        ∀ e, (attempt op s).1 = .error e → (attempt op s).2 = s ∧ ∀ later,
          attemptAll (before ++ op :: later) {} =
              ((attemptAll before {}).1 ++ .error e :: (attemptAll later s).1,
                (attemptAll later s).2) ∧
            attemptAll (before ++ later) {} =
              ((attemptAll before {}).1 ++ (attemptAll later s).1, (attemptAll later s).2) := by
  intro s
  have hrun : s = run {} before := Grounded.empty.attemptAll_snd before
  have hs : s.Grounded := hrun ▸ Grounded.empty.run before
  refine ⟨hrun, fun op => ?_⟩
  have hattempt := attempt_eq hs op
  rw [hattempt]
  refine ⟨rfl, hs.refused_iff op, fun e he => ?_⟩
  have he : s.answer op = .error e := he
  have hkept : s.after op = s := after_of_refused he
  refine ⟨hkept, fun later => ⟨?_, attemptAll_append before later {}⟩⟩
  -- The refused request is answered and leaves nothing for the later ones to see.
  have hlater : attemptAll (op :: later) s =
      (.error e :: (attemptAll later s).1, (attemptAll later s).2) := by
    simp only [attemptAll, hattempt, he, hkept]
  rw [attemptAll_append, hlater]

/-- Besides the builtin types there is none with the number 9, so no anonymous type has a field of
it, and the field in front of that one leaves nothing behind. -/
theorem intern_refused_of_second_field :
    let before : List Operation := [.table .builtins]
    let s := (attemptAll before {}).2
    let op : Operation := .intern [⟨"a", {}, ⟨1⟩, .unknown⟩, ⟨"b", {}, ⟨9⟩, .unknown⟩] {}
    s.Refuses op ∧ (attempt op s).2 = s ∧
      attemptAll (before ++ [op, op]) {} =
        ((attemptAll before {}).1 ++ [(attempt op s).1, (attempt op s).1], s) := by
  intro before s op
  obtain ⟨-, hatomic⟩ := attemptAll_atomic before
  obtain ⟨-, hrefused, hkept⟩ := hatomic op
  have hrefuses : s.Refuses op := by
    refine ⟨⟨"b", {}, ⟨9⟩, .unknown⟩, by simp, ?_⟩
    rintro ⟨d, hd⟩
    cases (show (none : Option TypeDef) = some d from hd)
  obtain ⟨e, he⟩ := hrefused.mpr hrefuses
  obtain ⟨hsame, hlater⟩ := hkept e he
  refine ⟨hrefuses, hsame, (hlater [op]).1.trans ?_⟩
  have hop : (attempt op s).1 = .error e := he
  have hs : (attempt op s).2 = s := hsame
  rw [show (attemptAll before {}).2 = s from rfl, hop]
  simp only [attemptAll, hop, hs]

end Store

end AnonymousObjects
