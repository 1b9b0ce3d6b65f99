import AnonymousObjects.Binding.Symbols
import AnonymousObjects.Diagnostic
import AnonymousObjects.Types.Registry

/-!
# Actions of the binder

Binding may create types and reports problems as it goes, and it stops only at a fault. An `Action`
is a computation of this kind: from a store it makes an `Outcome`, which holds the result or the
fault, the store afterwards, and the diagnostics and events of this computation alone, in order.
What was created and reported before a fault stays. `andThen_of_ok` and `andThen_of_error` say what
a computation followed by another does.
-/

namespace AnonymousObjects

/-- Why binding stops. Neither happens in trees read from source text. -/
inductive BindFault where
  | strayMemberBinding
  | unknownType (id : TypeId)
deriving DecidableEq, Repr

/-- The message of a fault. A type that does not exist is named by its number. -/
def BindFault.message : BindFault → String
  | .strayMemberBinding => "member binding outside of a conditional access"
  | .unknownType id => toString id.number

/-- What binding does besides reporting problems, for those who watch it. -/
inductive Event where
  | binding (member : ContainingMember)
  | created (type : String) (display : String)
  | found (type : String) (span : Span)
  | denied (member : Option ContainingMember)
deriving DecidableEq, Repr

/-- What came of a computation. -/
structure Outcome (α : Type) where
  result : Except BindFault α
  store : Store
  diagnostics : List Diagnostic := []
  events : List Event := []

/-- A computation that may create types, report problems, and stop at a fault. -/
def Action (α : Type) : Type :=
  Store → Outcome α

namespace Action

variable {α β : Type}

/-- A computation followed by one that depends on its result. -/
def andThen (x : Action α) (f : α → Action β) : Action β := fun s =>
  let first := x s
  match first.result with
  | .error fault => ⟨.error fault, first.store, first.diagnostics, first.events⟩
  | .ok a =>
    let second := f a first.store
    ⟨second.result, second.store, first.diagnostics ++ second.diagnostics,
      first.events ++ second.events⟩

/-- Actions are run one after another. -/
instance : Monad Action where
  pure a := fun s => ⟨.ok a, s, [], []⟩
  bind := andThen

/-- Stops at a fault. -/
def stop (fault : BindFault) : Action α := fun s =>
  ⟨.error fault, s, [], []⟩

/-- Reports a problem. -/
def report (p : Problem) (span : Span) : Action Unit := fun s =>
  ⟨.ok (), s, [.ofProblem "bind" p span], []⟩

/-- Lets those who watch know of an event. -/
def note (e : Event) : Action Unit := fun s =>
  ⟨.ok (), s, [], [e]⟩

/-- The type table. -/
def table : Action TypeTable := fun s =>
  ⟨.ok s.table, s, [], []⟩

/-- Asks the type table about types, which have to exist. -/
def ask (f : TypeTable → Except UnknownType α) : Action α := fun s =>
  match f s.table with
  | .ok a => ⟨.ok a, s, [], []⟩
  | .error e => ⟨.error (.unknownType e.id), s, [], []⟩

/-- Finds a type in the table or creates it. -/
def make (f : TypeTable → TypeId × TypeTable) : Action TypeId := fun s =>
  let (id, t) := f s.table
  ⟨.ok id, { s with table := t }, [], []⟩

/-- Finds or creates a type that is built from others, which have to exist. -/
def build (f : TypeTable → Except UnknownType (TypeId × TypeTable)) : Action TypeId := fun s =>
  match f s.table with
  | .ok (id, t) => ⟨.ok id, { s with table := t }, [], []⟩
  | .error e => ⟨.error (.unknownType e.id), s, [], []⟩

/-- Finds or creates the anonymous type of a list of fields. -/
def intern (fields : List AnonymousField) (span : Span) : Action AnonymousType := fun s =>
  match s.registry.find? (AnonymousKey.ofFields fields), s.intern fields span with
  | some _, .ok (type, s') => ⟨.ok type, s', [], [.found type.name span]⟩
  | none, .ok (type, s') =>
    ⟨.ok type, s', [],
      [.created type.name (((s'.table.get? type.id).map (·.name)).getD "")]⟩
  | _, .error e => ⟨.error (.unknownType e.id), s, [], []⟩

/-- A result alone changes and reports nothing. -/
@[simp] theorem pure_apply (a : α) (s : Store) :
    (pure a : Action α) s = ⟨.ok a, s, [], []⟩ := rfl

/-- One action runs after another. -/
theorem bind_apply (x : Action α) (f : α → Action β) (s : Store) :
    (x >>= f) s = andThen x f s := rfl

/-- After a fault nothing is run. -/
theorem andThen_of_error {x : Action α} {f : α → Action β} {s : Store} {fault : BindFault}
    (h : (x s).result = .error fault) :
    andThen x f s = ⟨.error fault, (x s).store, (x s).diagnostics, (x s).events⟩ := by
  simp [andThen, h]

/-- After a result the next computation is run in the store left behind. -/
theorem andThen_of_ok {x : Action α} {f : α → Action β} {s : Store} {a : α}
    (h : (x s).result = .ok a) :
    andThen x f s =
      ⟨(f a (x s).store).result, (f a (x s).store).store,
        (x s).diagnostics ++ (f a (x s).store).diagnostics,
        (x s).events ++ (f a (x s).store).events⟩ := by
  simp [andThen, h]

/-- A computation is not changed by taking its result as it is. -/
theorem andThen_pure (x : Action α) : andThen x pure = x := by
  funext s
  rcases h : x s with ⟨_ | a, s', ds, es⟩ <;> simp [andThen, h]

/-- How computations are grouped does not matter. -/
theorem andThen_assoc {γ : Type} (x : Action α) (f : α → Action β) (g : β → Action γ) :
    andThen (andThen x f) g = andThen x fun a => andThen (f a) g := by
  funext s
  rcases h : x s with ⟨_ | a, s', ds, es⟩
  · simp [andThen, h]
  · rcases h' : f a s' with ⟨_ | b, s'', ds', es'⟩ <;> simp [andThen, h, h']

/-- Running a computation first that only gives a value is running the second one. -/
theorem pure_andThen (a : α) (f : α → Action β) : andThen (pure a) f = f a := by
  funext s
  simp [andThen]

/-- Actions can be regrouped, and values given on the way can be filled in. -/
instance : LawfulMonad Action :=
  LawfulMonad.mk' Action andThen_pure pure_andThen andThen_assoc

end Action

end AnonymousObjects
