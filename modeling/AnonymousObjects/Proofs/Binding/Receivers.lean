import AnonymousObjects.Proofs.Binding.Faults

/-!
# Receivers in a stack

`Context.bindExpr` is given the receiver that member bindings refer to. A binder may as well keep
the receivers of the conditional accesses that it is inside of in a stack, push one before the
second part of a conditional access is bound and pop it afterwards, and look at the top of the stack
at a member binding. `Context.bindValue` does so. `bindValue_mirrors` shows that it does what
`bindExpr` does with the top of the stack, and that the stack it leaves is the one it was given,
also where binding stops at a fault.
-/

namespace AnonymousObjects

open Syntax (Expr Initializer Name Program)

/-- A computation that may create types, report problems, and stop at a fault, with a stack of
receivers, the innermost first. The stack is there after a fault as well. -/
def StackAction (α : Type) : Type :=
  List Receiver → Store → Outcome α × List Receiver

namespace StackAction

variable {α β : Type}

/-- A computation followed by one that depends on its result. -/
def andThen (x : StackAction α) (f : α → StackAction β) : StackAction β := fun held s =>
  let (first, left) := x held s
  match first.result with
  | .error fault => (⟨.error fault, first.store, first.diagnostics, first.events⟩, left)
  | .ok a =>
    let (second, left') := f a left first.store
    (⟨second.result, second.store, first.diagnostics ++ second.diagnostics,
      first.events ++ second.events⟩, left')

/-- Computations with a stack are run one after another. -/
instance : Monad StackAction where
  pure a := fun held s => (⟨.ok a, s, [], []⟩, held)
  bind := andThen

/-- A computation that does not look at the stack. -/
def ofAction (x : Action α) : StackAction α := fun held s =>
  (x s, held)

/-- The receiver on top of the stack. -/
def innermost : StackAction (Option Receiver) := fun held s =>
  (⟨.ok held.head?, s, [], []⟩, held)

/-- Runs a computation with a receiver pushed on the stack. It is popped whatever came of the
computation. -/
def holding (r : Receiver) (x : StackAction α) : StackAction α := fun held s =>
  let (outcome, left) := x (r :: held) s
  (outcome, left.tail)

/-! ## Computations that leave the stack as it is -/

/-- Run with a stack, `x` does what `y` does and leaves the stack as it was. -/
def Mirrors (held : List Receiver) (x : StackAction α) (y : Action α) : Prop :=
  ∀ s, x held s = (y s, held)

variable {held : List Receiver} {x : StackAction α} {y : Action α} {f : α → StackAction β}
  {g : α → Action β}

/-- An action that knows no stack leaves it as it is. -/
theorem mirrors_ofAction : Mirrors held (ofAction y) y :=
  fun _ => rfl

/-- A result alone leaves the stack as it is. -/
theorem mirrors_pure {a : α} : Mirrors held (pure a) (pure a) :=
  fun _ => rfl

/-- What runs one after another leaves the stack as it is if each part does. -/
theorem Mirrors.bind (hx : Mirrors held x y) (hf : ∀ a, Mirrors held (f a) (g a)) :
    Mirrors held (x >>= f) (y >>= g) := by
  intro s
  show andThen x f held s = (Action.andThen y g s, held)
  cases hy : (y s).result with
  | error fault => simp [andThen, hx s, Action.andThen_of_error hy, hy]
  | ok a => simp [andThen, hx s, Action.andThen_of_ok hy, hy, hf a (y s).store]

/-- Asking for the innermost receiver is asking for the first of the stack. -/
theorem mirrors_innermost_bind {k : Option Receiver → StackAction α}
    (h : Mirrors held (k held.head?) y) : Mirrors held (innermost >>= k) y := by
  intro s
  show andThen innermost k held s = (y s, held)
  simp [andThen, innermost, h s]

/-- What is pushed is popped, so a computation that leaves the longer stack as it is leaves the
shorter one as it is. -/
theorem Mirrors.holding {r : Receiver} (h : Mirrors (r :: held) x y) :
    Mirrors held (holding r x) y := by
  intro s
  simp [StackAction.holding, h s]

end StackAction

namespace Context

open StackAction (ofAction innermost holding Mirrors mirrors_ofAction mirrors_pure
  mirrors_innermost_bind)

mutual

/-- Binds an expression for its value, with a stack of receivers. -/
def bindValue (ctx : Context) : Expr → StackAction BoundExpr
  | .identifier name => ofAction (ctx.bindName name)
  | .memberAccess p target name => do
    let source := Expr.memberAccess p target name
    let t ← ofAction Action.table
    match ctx.typeNamed t target with
    | some owner => ofAction (ctx.bindStaticField source owner name)
    | none =>
      let target ← bindValue ctx target
      ofAction (ctx.bindInstanceField source target name)
  | .qualifiedName p left right => do
    let source := Expr.qualifiedName p left right
    let t ← ofAction Action.table
    match ctx.typeNamed t left, simpleName? left with
    | some owner, _ => ofAction (ctx.bindStaticField source owner right)
    | none, some name =>
      ofAction (reject source [] (.unknownType (Text.ofString name.text)) (ctx.span name.position))
    | none, none =>
      let inner ← bindValue ctx left
      ofAction (ctx.rejectPath source left inner)
  | .conditionalAccess p target access => do
    let source := Expr.conditionalAccess p target access
    let bound ← bindValue ctx target
    if bound.hasAnyErrors then pure (.bad source [bound])
    else
      match ← ofAction (receiverType? bound) with
      | none => ofAction (ctx.rejectReceiver source bound)
      | some type =>
        let access ← holding ⟨target, type⟩ (bindValue ctx access)
        let lifted ← ofAction (lift access.type?)
        pure (.conditionalAccess source bound access lifted)
  | .memberBinding p name => do
    match ← innermost with
    | none => ofAction (Action.stop .strayMemberBinding)
    | some r => ofAction (ctx.bindInstanceField (.memberBinding p name) r.node name)
  | .invocation p callee arguments => do
    let target ← bindValue ctx callee
    let bound ← bindValues ctx arguments
    ofAction (ctx.bindCall (.invocation p callee arguments) callee target bound)
  | .literal p l => ofAction (bindLiteral (.literal p l) l)
  | .binary p op left right => do
    let boundLeft ← bindValue ctx left
    let boundRight ← bindValue ctx right
    ofAction (ctx.bindBinary (.binary p op left right) op boundLeft boundRight)
  | .parenthesized _ inner => bindValue ctx inner
  | .creation p new initializers => do
    let resolved ← bindFieldValues ctx 0 [] initializers
    ofAction (bindFields ctx (.creation p new initializers) new resolved)
  | .error p text => pure (.bad (.error p text) [])

/-- Binds expressions in order, with a stack of receivers. -/
def bindValues (ctx : Context) : List Expr → StackAction (List BoundExpr)
  | [] => pure []
  | e :: es => do
    let b ← bindValue ctx e
    let bs ← bindValues ctx es
    pure (b :: bs)

/-- Binds initializers in order, from an index on, with a stack of receivers. -/
def bindFieldValues (ctx : Context) :
    Nat → List String → List (Initializer Expr) → StackAction (List ResolvedField)
  | _, _, [] => pure []
  | index, used, ⟨place, label, e⟩ :: rest => do
    let init : Initializer Expr := ⟨place, label, e⟩
    let (name, nameless) := ResolvedField.shapeOf init
    if nameless then ofAction (Action.report .invalidMemberDeclarator (ctx.span e.position))
    let value ← bindValue ctx e
    let resolved ← ofAction (ResolvedField.resolve ctx index used init name nameless value)
    let others ← bindFieldValues ctx (index + 1) (used ++ resolved.name.toList) rest
    pure (resolved :: others)

end

variable {ctx : Context}

mutual

/-- Binding with a stack is binding with the receiver on top of it, and leaves the stack as it
was. -/
theorem bindValue_mirrors (held : List Receiver) (e : Expr) :
    Mirrors held (ctx.bindValue e) (ctx.bindExpr held.head? e) := by
  cases e with
  | identifier | literal => exact mirrors_ofAction
  | error => exact mirrors_pure
  | memberAccess p target name =>
      refine mirrors_ofAction.bind fun t => ?_
      cases ctx.typeNamed t target with
      | some owner => exact mirrors_ofAction
      | none => exact (bindValue_mirrors held target).bind fun _ => mirrors_ofAction
  | qualifiedName p left right =>
      refine mirrors_ofAction.bind fun t => ?_
      cases ctx.typeNamed t left with
      | some owner => exact mirrors_ofAction
      | none =>
          cases simpleName? left with
          | some name => exact mirrors_ofAction
          | none => exact (bindValue_mirrors held left).bind fun _ => mirrors_ofAction
  | conditionalAccess p target access =>
      refine (bindValue_mirrors held target).bind fun bound => ?_
      split
      · exact mirrors_pure
      · refine mirrors_ofAction.bind fun type => ?_
        cases type with
        | none => exact mirrors_ofAction
        | some type =>
            -- The receiver is on top of the stack for the second part and for nothing else.
            refine (bindValue_mirrors (⟨target, type⟩ :: held) access).holding.bind fun _ => ?_
            exact mirrors_ofAction.bind fun _ => mirrors_pure
  | memberBinding p name =>
      refine mirrors_innermost_bind ?_
      cases held with
      | nil => exact mirrors_ofAction
      | cons r held => exact mirrors_ofAction
  | invocation p callee arguments =>
      refine (bindValue_mirrors held callee).bind fun _ => ?_
      exact (bindValues_mirrors held arguments).bind fun _ => mirrors_ofAction
  | binary p op left right =>
      refine (bindValue_mirrors held left).bind fun _ => ?_
      exact (bindValue_mirrors held right).bind fun _ => mirrors_ofAction
  | parenthesized p inner => exact bindValue_mirrors held inner
  | creation p new initializers =>
      exact (bindFieldValues_mirrors held 0 [] initializers).bind fun _ => mirrors_ofAction

/-- Several expressions are bound with the stack as with its first receiver. -/
theorem bindValues_mirrors (held : List Receiver) (es : List Expr) :
    Mirrors held (ctx.bindValues es) (ctx.bindExprs held.head? es) := by
  cases es with
  | nil => exact mirrors_pure
  | cons e es =>
      refine (bindValue_mirrors held e).bind fun _ => ?_
      exact (bindValues_mirrors held es).bind fun _ => mirrors_pure

/-- The fields of a creation are bound with the stack as with its first receiver. -/
theorem bindFieldValues_mirrors (held : List Receiver) (index : Nat) (used : List String)
    (inits : List (Initializer Expr)) :
    Mirrors held (ctx.bindFieldValues index used inits)
      (ctx.bindInitializers held.head? index used inits) := by
  cases inits with
  | nil => exact mirrors_pure
  | cons init rest =>
      obtain ⟨place, label, e⟩ := init
      -- What follows the report on the shape of the initializer is the same whether it is made or
      -- not.
      have htail := (bindValue_mirrors held e).bind fun value =>
        (mirrors_ofAction (y := ResolvedField.resolve ctx index used ⟨place, label, e⟩
            (ResolvedField.shapeOf ⟨place, label, e⟩).1
            (ResolvedField.shapeOf ⟨place, label, e⟩).2 value)).bind fun field =>
          (bindFieldValues_mirrors held (index + 1) (used ++ field.name.toList) rest).bind
            fun others => mirrors_pure (a := field :: others)
      rw [bindFieldValues, bindInitializers]
      simp only
      split
      · exact mirrors_ofAction.bind fun _ => htail
      · exact htail

end

end Context

/-! ## Bindings from an empty stack -/

namespace Compilation

variable {s : Store}

/-- From an empty stack, binding stops exactly at a member binding that is not inside the second
part of any conditional access, and with the message for it. Whether it stops or not, at any depth,
the stack is left as it was given; so what is bound next is bound as if nothing had been bound on
that stack before. -/
theorem bindValue_scoping (p : Program) (nullable : Option Bool) (file : Option String)
    (member : Option ContainingMember) (hs : (ofProgram p nullable file).Reachable s) (e : Expr) :
    let ctx := (ofProgram p nullable file).context member
    let run := ctx.bindValue e [] s
    ((∃ fault, run.1.result = .error fault) ↔
        ∃ place name, (Expr.memberBinding place name).Exposed e) ∧
      (∀ fault, run.1.result = .error fault →
        fault.message = "member binding outside of a conditional access") ∧
      (∀ d held t, ctx.bindValue d held t = (ctx.bindExpr held.head? d t, held)) ∧
      (ofProgram p nullable file).Reachable run.1.store ∧
      ∀ later, ctx.bindValue later run.2 run.1.store = ctx.bindValue later [] run.1.store := by
  intro ctx run
  have hfits := ofProgram_fits p nullable file member
  have hmirrors : ∀ d held t, ctx.bindValue d held t = (ctx.bindExpr held.head? d t, held) :=
    fun d held t => Context.bindValue_mirrors held d t
  have hrun : run = (ctx.bindExpr none e s, []) := hmirrors e [] s
  have hstops : ∀ fault, run.1.result = .error fault ↔
      fault = .strayMemberBinding ∧ e.hasStray = true := by
    intro fault
    rw [hrun]
    exact Context.bindExpr_stops_iff hfits hs.sound
  refine ⟨?_, ?_, hmirrors, ?_, ?_⟩
  · simp only [hstops, exists_eq_left, Expr.hasStray_iff]
  · intro fault hfault
    rw [((hstops fault).mp hfault).1]
    rfl
  · rw [hrun]
    exact hs.trans (Context.bindExpr_moves none e s)
  · intro later
    rw [hrun]

/-- The call `a?.b(.c)` of a host: the binding of `b` has a target and that of `c` has none. -/
theorem bindValue_scoping_of_argument :
    let c := ofProgram ⟨[], [⟨⟨1, 1⟩, "a", ⟨⟨1, 4⟩, "string", 0⟩⟩], [], []⟩ none none
    let name : String → Name := fun text => ⟨text, none⟩
    let e := Expr.invocation none
      (.conditionalAccess none (.identifier (name "a")) (.memberBinding none (name "b")))
      [.memberBinding none (name "c")]
    (∃ fault, ((c.context none).bindValue e [] c.store).1.result = .error fault) ∧
      ∀ later held, (c.context none).bindValue later held
          ((c.context none).bindValue e [] c.store).1.store =
        ((c.context none).bindExpr held.head? later
          ((c.context none).bindValue e [] c.store).1.store, held) := by
  intro c name e
  have hscoping := bindValue_scoping ⟨[], [⟨⟨1, 1⟩, "a", ⟨⟨1, 4⟩, "string", 0⟩⟩], [], []⟩ none none
    none .refl e
  have hexposed : (Expr.memberBinding none (name "c")).Exposed e := .single (by simp [e])
  exact ⟨hscoping.1.mpr ⟨none, name "c", hexposed⟩, fun later held => hscoping.2.2.1 later held _⟩

end Compilation

end AnonymousObjects
