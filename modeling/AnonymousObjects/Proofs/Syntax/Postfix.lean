import AnonymousObjects.Proofs.Syntax.Creations
import AnonymousObjects.Proofs.Syntax.Parts
import AnonymousObjects.Text.NameTable

/-!
# Chains of postfix operations

Postfix operations are read from left to right, and each is pushed into the second part of the
conditional access that has been built so far. `Expr.chain` says what comes out from the other end:
the operations after a `?.` are those of the member that it binds. The two agree
(`Expr.extend_chain`), and so an operand is read as the chain of its operations, wherever it stands
(`Reading.feed_chain`, `Expr.parse_chain`).
-/

namespace AnonymousObjects.Syntax

/-- A postfix operation: access to a member, conditional access to a member, or a call. -/
inductive Postfix where
  | member (name : Name)
  | conditional (name : Name)
  | call (arguments : List Expr)

/-- What a postfix operation makes of the expression in front of it. -/
def Postfix.apply : Postfix → Expr → Expr
  | member name => Reading.access name
  | conditional name => Reading.conditional name
  | call arguments => Reading.call arguments

namespace Expr

/-- An expression with postfix operations. Those after a conditional access belong to what is done
when its target is not null, which starts with the member. -/
def chain (target : Expr) : List Postfix → Expr
  | [] => target
  | .member name :: rest => chain (.memberAccess target.position target name) rest
  | .call arguments :: rest => chain (.invocation target.position target arguments) rest
  | .conditional name :: rest =>
    .conditionalAccess target.position target (chain (.memberBinding name.position name) rest)

/-- A conditional access. -/
def isConditional : Expr → Bool
  | conditionalAccess _ _ _ => true
  | _ => false

/-- An operation goes onto an expression that is no conditional access. -/
theorem extend_of_not_conditional {e : Expr} (h : e.isConditional = false)
    (operation : Expr → Expr) : e.extend operation = operation e := by
  cases e with
  | conditionalAccess => cases h
  | _ => rfl

/-- One more operation at the end of a chain. The induction is on the operations and goes into the
second part of a conditional access where the chain does. -/
theorem extend_chain (op : Postfix) (ops : List Postfix) {target : Expr}
    (h : target.isConditional = false) :
    (target.chain ops).extend op.apply = target.chain (ops ++ [op]) := by
  induction ops generalizing target with
  | nil =>
    rw [chain, extend_of_not_conditional h]
    cases op <;> rfl
  | cons first rest ih =>
    cases first with
    | member name => exact ih rfl
    | call arguments => exact ih rfl
    | conditional name => exact congrArg _ (ih rfl)

/-- Conditional accesses in the expression have targets of other forms. -/
def LeansRight (e : Expr) : Prop :=
  ∀ p target access, (conditionalAccess p target access).Within e → target.isConditional = false

/-- The conditional accesses in the expression have a property, which is one of their targets and of
what is done when these are not null. -/
def EachConditional (C : Expr → Expr → Prop) (e : Expr) : Prop :=
  ∀ p target access, (conditionalAccess p target access).Within e → C target access

/-- A property of conditional accesses that reading keeps: they have it when only a member has been
read, and after each further operation. -/
structure KeptByReading (C : Expr → Expr → Prop) : Prop where
  binding : ∀ target p name, target.isConditional = false → C target (memberBinding p name)
  extend : ∀ target access (op : Postfix), C target access → C target (access.extend op.apply)

variable {C : Expr → Expr → Prop} {e : Expr}

/-- The conditional accesses of a part have the property. -/
theorem EachConditional.part {part : Expr} (h : e.EachConditional C) (hpart : part ∈ e.parts) :
    part.EachConditional C :=
  fun p target access hwithin => h p target access (hwithin.tail hpart)

/-- The conditional accesses have a property if the expression itself and its parts do. -/
theorem EachConditional.of_parts
    (hroot : ∀ p target access, e = conditionalAccess p target access → C target access)
    (hparts : ∀ part ∈ e.parts, part.EachConditional C) : e.EachConditional C := by
  intro p target access hwithin
  rcases within_iff.mp hwithin with heq | ⟨part, hpart, hwithin⟩
  · exact hroot p target access heq.symm
  · exact hparts part hpart p target access hwithin

/-- What is no conditional access has the property if its parts have it. -/
theorem EachConditional.of_other (he : e.isConditional = false)
    (hparts : ∀ part ∈ e.parts, part.EachConditional C) : e.EachConditional C :=
  .of_parts (fun _ _ _ heq => by simp [heq, isConditional] at he) hparts

/-- An expression without parts that is no conditional access has none. -/
theorem EachConditional.of_leaf (he : e.isConditional = false) (h : e.parts = []) :
    e.EachConditional C :=
  .of_other he (by simp [h])

/-- An operation keeps the property at the end of any chain if its arguments have it. -/
theorem EachConditional.extend (hC : KeptByReading C) (op : Postfix)
    (harguments : ∀ arguments, op = .call arguments → ∀ a ∈ arguments, a.EachConditional C)
    (h : e.EachConditional C) : (e.extend op.apply).EachConditional C := by
  fun_induction Expr.extend op.apply e with
  | case1 p target access ih =>
    refine .of_parts (fun _ _ _ heq => ?_) fun part hpart => ?_
    -- The operation is applied inside the access, whose target stays what it was.
    · injection heq with _ htarget haccess
      subst htarget haccess
      exact hC.extend _ _ op (h p _ _ .refl)
    · rcases (by simpa [parts] using hpart :
        part = target ∨ part = Expr.extend op.apply access) with rfl | rfl
      · exact h.part (by simp [parts])
      · exact ih (h.part (by simp [parts]))
  | case2 e hother =>
    have he : e.isConditional = false := by
      cases e with
      | conditionalAccess => exact absurd rfl (hother _ _ _)
      | _ => rfl
    cases op with
    | member name => exact .of_other rfl (by simpa [Postfix.apply, Reading.access, parts] using h)
    | call arguments =>
      have harguments := harguments arguments rfl
      exact .of_other rfl (by simpa [Postfix.apply, Reading.call, parts] using ⟨h, harguments⟩)
    | conditional name =>
      refine .of_parts (fun _ _ _ heq => ?_) ?_
      · injection heq with _ htarget haccess
        subst htarget haccess
        exact hC.binding _ _ _ he
      · simpa [Postfix.apply, Reading.conditional, parts] using
          ⟨h, .of_leaf rfl rfl⟩

end Expr

namespace Grammar

/-! ## Operands as chains -/

/-- A postfix operation with its tokens. -/
inductive Operation where
  | member (op : Marked .dot) (name : Ident)
  | conditional (op : Marked .questionDot) (name : Ident)
  | call (opening : Marked .openParen) (closing : Marked .closeParen)
  | callWith (opening : Marked .openParen) (arguments : Arguments) (closing : Marked .closeParen)

namespace Operation

/-- The tokens of an operation. -/
def tokens : Operation → List Token
  | member op name => [op.val, name.val]
  | conditional op name => [op.val, name.val]
  | call opening closing => [opening.val, closing.val]
  | callWith opening arguments closing => opening.val :: (arguments.tokens ++ [closing.val])

/-- The operation that the tokens stand for. -/
def build [Text.CharacterNames] : Operation → Postfix
  | member _ name => .member (Reading.nameOf name.val)
  | conditional _ name => .conditional (Reading.nameOf name.val)
  | call _ _ => .call []
  | callWith _ arguments _ => .call arguments.build

/-- An operand with one more operation. -/
def after (operand : Chain) : Operation → Chain
  | member op name => .member operand op name
  | conditional op name => .conditional operand op name
  | call opening closing => .call operand opening closing
  | callWith opening arguments closing => .callWith operand opening arguments closing

/-- The tokens of an operation come after those of its operand. -/
theorem tokens_after (operand : Chain) (op : Operation) :
    (op.after operand).tokens = operand.tokens ++ op.tokens := by
  cases op <;> rfl

/-- An operation builds its form on what its operand builds. -/
theorem build_after [Text.CharacterNames] (operand : Chain) (op : Operation) :
    (op.after operand).build = operand.build.extend op.build.apply := by
  cases op <;> rfl

end Operation

/-- A primary expression with operations. -/
def Primary.followedBy (head : Primary) (ops : List Operation) : Chain :=
  ops.foldl Operation.after (.primary head)

/-- The tokens of operations come after those of the operand, in order. -/
theorem tokens_foldl_after (operand : Chain) (ops : List Operation) :
    (ops.foldl Operation.after operand).tokens =
      operand.tokens ++ ops.flatMap Operation.tokens := by
  induction ops generalizing operand with
  | nil => simp
  | cons op ops ih => simp [ih, Operation.tokens_after]

/-- The tokens of operations come after those of the primary, in order. -/
theorem Primary.tokens_followedBy (head : Primary) (ops : List Operation) :
    (head.followedBy ops).tokens = head.tokens ++ ops.flatMap Operation.tokens :=
  tokens_foldl_after _ ops

/-- A path on something that is no conditional access is none. -/
theorem pathExpr_isConditional {path : Expr} (start : Position) (h : path.isConditional = false)
    (rest : List (Marked .colons × Ident)) : (pathExpr start path rest).isConditional = false := by
  induction rest generalizing path with
  | nil => exact h
  | cons more rest ih => exact ih rfl

/-- A primary expression is no conditional access. In particular parentheses end one. -/
theorem Primary.build_isConditional [Text.CharacterNames] (head : Primary) :
    head.build.isConditional = false := by
  cases head with
  | qualifiedName first op second rest => exact pathExpr_isConditional _ rfl _
  | _ => rfl

/-- Operations on a chain build the longer chain. -/
theorem build_foldl_after [Text.CharacterNames] {operand : Chain} {target : Expr}
    (htarget : target.isConditional = false)
    {before : List Postfix} (h : operand.build = target.chain before) (ops : List Operation) :
    (ops.foldl Operation.after operand).build =
      target.chain (before ++ ops.map Operation.build) := by
  induction ops generalizing operand before with
  | nil => simpa using h
  | cons op ops ih =>
    have hnext : (op.after operand).build = target.chain (before ++ [op.build]) := by
      rw [Operation.build_after, h, Expr.extend_chain op.build before htarget]
    simpa using ih hnext

/-- A primary expression with operations builds the chain of them. -/
theorem Primary.build_followedBy [Text.CharacterNames] (head : Primary) (ops : List Operation) :
    (head.followedBy ops).build = head.build.chain (ops.map Operation.build) :=
  build_foldl_after head.build_isConditional
    (show (Chain.primary head).build = head.build.chain [] from rfl) ops

/-! ## Conditional accesses -/

open AnonymousObjects.Syntax.Expr (EachConditional KeptByReading)

section

variable {C : Expr → Expr → Prop}

/-- The conditional accesses of a path are those of its start. -/
theorem eachConditional_path {start : Position} {path : Expr} (h : path.EachConditional C)
    (rest : List (Marked .colons × Ident)) : (pathExpr start path rest).EachConditional C := by
  induction rest generalizing path with
  | nil => exact h
  | cons more rest ih => exact ih (.of_other rfl (by simpa [Expr.parts]))

/-- The conditional accesses of a creation are those of its values. -/
theorem eachConditional_creation {new : Position} {inits : List (Initializer Expr)}
    (h : ∀ init ∈ inits, init.value.EachConditional C) :
    (Reading.creation new inits).EachConditional C :=
  .of_other rfl (by simpa [Reading.creation, Expr.parts] using h)

variable [Text.CharacterNames]

mutual

/-- The conditional accesses that a derivation builds have every property that reading keeps. -/
theorem Sum.eachConditional_build (hC : KeptByReading C) :
    ∀ s : Sum, s.build.EachConditional C
  | .chain operand => operand.eachConditional_build hC
  | .plus left op right =>
    .of_other rfl (by simpa [Sum.build, Expr.parts] using
      ⟨left.eachConditional_build hC, right.eachConditional_build hC⟩)

/-- The conditional accesses that a chain builds have the property. -/
theorem Chain.eachConditional_build (hC : KeptByReading C) :
    ∀ operand : Chain, operand.build.EachConditional C
  | .primary head => head.eachConditional_build hC
  | .member target op name =>
    (target.eachConditional_build hC).extend hC (.member (Reading.nameOf name.val)) (by simp)
  | .conditional target op name =>
    (target.eachConditional_build hC).extend hC (.conditional (Reading.nameOf name.val)) (by simp)
  | .call callee opening closing =>
    (callee.eachConditional_build hC).extend hC (.call []) (by simp)
  | .callWith callee opening arguments closing =>
    (callee.eachConditional_build hC).extend hC (.call arguments.build)
      (by simpa using arguments.eachConditional_build hC)

/-- The conditional accesses that arguments build have the property. -/
theorem Arguments.eachConditional_build (hC : KeptByReading C) :
    ∀ arguments : Arguments, ∀ e ∈ arguments.build, e.EachConditional C
  | .last value => by simpa [Arguments.build] using value.eachConditional_build hC
  | .more value comma rest => by
      simpa [Arguments.build] using
        ⟨value.eachConditional_build hC, rest.eachConditional_build hC⟩

/-- The conditional accesses that a primary builds have the property. -/
theorem Primary.eachConditional_build (hC : KeptByReading C) :
    ∀ head : Primary, head.build.EachConditional C
  | .name token => .of_leaf rfl rfl
  | .qualifiedName first op second rest => eachConditional_path (.of_leaf rfl rfl) _
  | .integer token => .of_leaf rfl rfl
  | .string token => .of_leaf rfl rfl
  | .trueWord token => .of_leaf rfl rfl
  | .falseWord token => .of_leaf rfl rfl
  | .nullWord token => .of_leaf rfl rfl
  | .paren opening inner closing =>
    .of_other rfl (by simpa [Primary.build, Expr.parts] using inner.eachConditional_build hC)
  | .emptyCreation new opening closing => eachConditional_creation (by simp)
  | .creation new opening initializers closing =>
    eachConditional_creation (initializers.eachConditional_build hC)

/-- The conditional accesses that initializers build have the property. -/
theorem Initializers.eachConditional_build (hC : KeptByReading C) :
    ∀ initializers : Initializers, ∀ init ∈ initializers.build, init.value.EachConditional C
  | .last init => by simpa [Initializers.build] using init.eachConditional_build hC
  | .trailing init comma => by simpa [Initializers.build] using init.eachConditional_build hC
  | .more init comma rest => by
      simpa [Initializers.build] using
        ⟨init.eachConditional_build hC, rest.eachConditional_build hC⟩

/-- The conditional accesses that a declarator builds have the property. -/
theorem Declarator.eachConditional_build (hC : KeptByReading C) :
    ∀ init : Declarator, init.build.value.EachConditional C
  | .named _ _ value => value.eachConditional_build hC
  | .implicit value => value.eachConditional_build hC

end

end

/-- No conditional access that a derivation builds has another for its target. -/
theorem Sum.leansRight_build [Text.CharacterNames] (s : Sum) : s.build.LeansRight :=
  s.eachConditional_build ⟨fun _ _ _ h => h, fun _ _ _ h => h⟩

end Grammar

/-- The conditional accesses in an expression from source text have every property that reading
keeps. -/
theorem Expr.FromSource.eachConditional [Text.CharacterNames] {C : Expr → Expr → Prop} {e : Expr}
    (h : e.FromSource) (hC : KeptByReading C) : e.EachConditional C := by
  obtain ⟨s, rfl⟩ := h.exists_sum
  exact s.eachConditional_build hC

/-! ## Reading -/

open Grammar (Chain OpenSum Operation Primary)

/-- The places at which an operand may start. -/
def Reading.Point.startsOperand : Point → Bool
  | operand | firstArgument | initializer => true
  | _ => false

/-- Wherever an operand may start, a primary expression with operations is read as a chain. -/
theorem Reading.feed_chain [Text.CharacterNames] (head : Primary) (ops : List Operation)
    {before : List Token} {r : Reading} (hbefore : feed shift start before = .ok r)
    (hstarts : r.point.startsOperand = true) :
    feed shift r (head.tokens ++ ops.flatMap Operation.tokens) =
      .ok { r with point := .complete (head.build.chain (ops.map Operation.build)) } := by
  -- What has been read before is built by an open derivation, and derivations are followed on: in
  -- them a chain is read by induction on the grammar.
  obtain ⟨q, -, rfl⟩ := Grammar.feed_of_map OpenSum.built_shift .start hbefore
  have hplace : q.inside.place = .operand := by
    obtain ⟨brackets, left, place⟩ := q
    cases place with
    | operand | firstArgument | initializer => rfl
    | _ => cases hstarts
  have hbuilt : (q.inside.reach (head.followedBy ops)).built =
      ⟨q.built.frames, q.built.left, .complete (head.followedBy ops).build⟩ := by
    obtain ⟨brackets, left, place⟩ := q
    cases place with
    | operand | firstArgument | initializer => rfl
    | _ => cases hplace
  have hfeed : feed OpenSum.shift q (head.followedBy ops).tokens =
      .ok (q.inside.reach (head.followedBy ops)) := by
    rw [OpenSum.feed_inside hplace (head.followedBy ops).opens]
    have hinside : q.inside = ⟨q.inside.brackets, q.inside.left, .operand⟩ := by rw [← hplace]
    rw [hinside]
    exact (head.followedBy ops).feed_tokens _ _
  rw [← head.tokens_followedBy, ← head.build_followedBy, Grammar.feed_map OpenSum.built_shift,
    hfeed, ← hbuilt]
  rfl

/-- Every operand is a primary expression with operations. -/
theorem Grammar.Chain.exists_followedBy (operand : Chain) :
    ∃ head ops, operand = Primary.followedBy head ops := by
  have hmore (op : Operation) {target : Chain}
      (h : ∃ head ops, target = Primary.followedBy head ops) :
      ∃ head ops, op.after target = Primary.followedBy head ops := by
    obtain ⟨head, ops, rfl⟩ := h
    exact ⟨head, ops ++ [op], by simp [Primary.followedBy]⟩
  match operand with
  | .primary head => exact ⟨head, [], rfl⟩
  | .member target op name => exact hmore (.member op name) target.exists_followedBy
  | .conditional target op name => exact hmore (.conditional op name) target.exists_followedBy
  | .call callee opening closing => exact hmore (.call opening closing) callee.exists_followedBy
  | .callWith callee opening arguments closing =>
      exact hmore (.callWith opening arguments closing) callee.exists_followedBy

/-- A primary expression with postfix operations is read as the chain of them: wherever an operand
may start, and as a whole text. Every operand of a derivation is of this form, and no conditional
access in an expression from source text has another for its target. -/
theorem Expr.parse_chain [Text.CharacterNames] :
    (∀ (head : Primary) (ops : List Operation),
      let tokens := head.tokens ++ ops.flatMap Operation.tokens
      let chain := head.build.chain (ops.map Operation.build)
      (∀ before r, feed Reading.shift .start before = .ok r → r.point.startsOperand = true →
        feed Reading.shift r tokens = .ok { r with point := .complete chain }) ∧
      ∀ source, Tokens.ofText .expression source = ⟨tokens, none⟩ → faultIn tokens = none →
        Expr.parse source = .ok chain) ∧
    (∀ operand : Chain, ∃ (head : Primary) (ops : List Operation),
      operand.tokens = head.tokens ++ ops.flatMap Operation.tokens ∧
        operand.build = head.build.chain (ops.map Operation.build)) ∧
    ∀ e : Expr, e.FromSource → ∀ p target access,
      (Expr.conditionalAccess p target access).Within e → target.isConditional = false := by
  refine ⟨fun head ops => ⟨fun _ _ => Reading.feed_chain head ops, ?_⟩, ?_, ?_⟩
  · intro source htokens hfaults
    have hempty : feed Reading.shift .start [] = .ok .start := rfl
    have hfeed := Reading.feed_chain head ops hempty rfl
    exact readText_of_feed (by rw [htokens]) (by rw [htokens]; exact hfaults)
      (by rw [htokens]; exact hfeed) rfl
  · intro operand
    obtain ⟨head, ops, rfl⟩ := operand.exists_followedBy
    exact ⟨head, ops, head.tokens_followedBy ops, head.build_followedBy ops⟩
  · intro e he
    obtain ⟨s, rfl⟩ := he.exists_sum
    exact s.leansRight_build

/-- In `(a?.b).c?.d(e)` the parentheses end the first conditional access, and the call belongs to
the second. The same operand is read as the first argument of `f`. -/
theorem parse_chain_of_parentheses :
    let name (text : String) (column : Nat) : Name := ⟨text, some ⟨1, column⟩⟩
    let inner : Expr := .conditionalAccess (some ⟨1, 2⟩) (.identifier (name "a" 2))
      (.memberBinding (some ⟨1, 5⟩) (name "b" 5))
    let target : Expr :=
      .memberAccess (some ⟨1, 1⟩) (.parenthesized (some ⟨1, 1⟩) inner) (name "c" 8)
    let access : Expr := .invocation (some ⟨1, 11⟩) (.memberBinding (some ⟨1, 11⟩) (name "d" 11))
      [.identifier (name "e" 13)]
    let e : Expr := .conditionalAccess (some ⟨1, 1⟩) target access
    let source := "(a?.b).c?.d(e)".toList
    let frames := [Reading.Frame.argument none (.identifier (name "f" 1)) []]
    Expr.parse source = .ok e ∧ target.isConditional = false ∧
      feed Reading.shift .start (Tokens.ofText .expression "f(".toList).list =
        .ok ⟨frames, none, .firstArgument⟩ ∧
      feed Reading.shift ⟨frames, none, .firstArgument⟩ (Tokens.ofText .expression source).list =
        .ok ⟨frames, none, .complete e⟩ := by
  intro name inner target access e source frames
  let token (kind : TokenKind) (text : String) (column : Nat) : Grammar.Terminal kind :=
    ⟨⟨kind, text, ⟨1, column⟩⟩, rfl⟩
  let nested : Chain := .conditional (.primary (.name (token .name "a" 2)))
    (token (.mark .questionDot) "?." 3) (token .name "b" 5)
  let head : Primary := .paren (token (.mark .openParen) "(" 1) (.chain nested)
    (token (.mark .closeParen) ")" 6)
  let ops : List Operation :=
    [.member (token (.mark .dot) "." 7) (token .name "c" 8),
      .conditional (token (.mark .questionDot) "?." 9) (token .name "d" 11),
      .callWith (token (.mark .openParen) "(" 12)
        (.last (.chain (.primary (.name (token .name "e" 13))))) (token (.mark .closeParen) ")" 14)]
  have hparse : Expr.parse source = .ok e := (Expr.parse_chain.1 head ops).2 source rfl rfl
  have hfeed : feed Reading.shift .start (Tokens.ofText .expression "f(".toList).list =
      .ok ⟨frames, none, .firstArgument⟩ := rfl
  exact ⟨hparse, Expr.parse_chain.2.2 e (.text source e hparse) _ target access .refl, hfeed,
    (Expr.parse_chain.1 head ops).1 _ _ hfeed rfl⟩

end AnonymousObjects.Syntax
