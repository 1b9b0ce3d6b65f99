import AnonymousObjects.Proofs.Syntax.Printing.Numbers
import Mathlib.Data.List.Flatten

/-!
# The creations of an expression

`Expr.creations` lists the creations in an expression in the order of their `new` tokens, an outer
one before those in it. `Sum.news_build` says that no `new` of a derivation is lost or moved when
its expression is built, and `Expr.FromSource.closed` that a creation from source text has no member
binding whose target is outside of it.
-/

namespace AnonymousObjects.Syntax

namespace Expr

mutual

/-- The creations in an expression, in source order. -/
def creations : Expr → List Expr
  | identifier _ | memberBinding _ _ | literal _ _ | error _ _ => []
  | memberAccess _ target _ => creations target
  | qualifiedName _ left _ => creations left
  | conditionalAccess _ target access => creations target ++ creations access
  | invocation _ callee arguments => creations callee ++ creationsOf arguments
  | binary _ _ left right => creations left ++ creations right
  | parenthesized _ inner => creations inner
  | creation p new initializers =>
    creation p new initializers :: creationsOfInitializers initializers

/-- The creations in several expressions. -/
def creationsOf : List Expr → List Expr
  | [] => []
  | e :: es => creations e ++ creationsOf es

/-- The creations in several initializers. -/
def creationsOfInitializers : List (Initializer Expr) → List Expr
  | [] => []
  | ⟨_, _, value⟩ :: rest => creations value ++ creationsOfInitializers rest

end

/-- Where the `new` of a creation stands. -/
def new? : Expr → Option Position
  | creation _ new _ => new
  | _ => none

/-- A postfix operation adds its own creations after those of its target. -/
theorem creations_extend {operation : Expr → Expr} (more : List Expr)
    (h : ∀ e : Expr, (operation e).creations = e.creations ++ more) (e : Expr) :
    (e.extend operation).creations = e.creations ++ more := by
  fun_induction extend operation e with
  | case1 p target access ih => rw [creations, ih, creations, List.append_assoc]
  | case2 e _ => exact h e

/-- A member access adds no creation. -/
theorem creations_access (target : Expr) (name : Name) :
    (target.extend (Reading.access name)).creations = target.creations := by
  rw [creations_extend [] (fun e => by simp [Reading.access, creations]), List.append_nil]

/-- A conditional access to a member adds no creation. -/
theorem creations_conditional (target : Expr) (name : Name) :
    (target.extend (Reading.conditional name)).creations = target.creations := by
  rw [creations_extend [] (fun e => by simp [Reading.conditional, creations]), List.append_nil]

/-- A call adds the creations in its arguments. -/
theorem creations_call (callee : Expr) (arguments : List Expr) :
    (callee.extend (Reading.call arguments)).creations =
      callee.creations ++ creationsOf arguments :=
  creations_extend _ (fun e => by simp [Reading.call, creations]) callee

mutual

/-- The names in a part of an expression are as proper as those of the whole. -/
theorem isProper_of_mem_creations {c : Expr} : ∀ {e : Expr}, e.isProper = true → c ∈ e.creations →
    c.isProper = true
  | memberAccess _ target _, he, hc => by
      simp only [isProper, Bool.and_eq_true] at he
      exact isProper_of_mem_creations he.1 hc
  | qualifiedName _ left _, he, hc => by
      simp only [isProper, Bool.and_eq_true] at he
      exact isProper_of_mem_creations he.1 hc
  | conditionalAccess _ target access, he, hc => by
      simp only [isProper, Bool.and_eq_true] at he
      rcases List.mem_append.mp hc with hc | hc
      · exact isProper_of_mem_creations he.1 hc
      · exact isProper_of_mem_creations he.2 hc
  | invocation _ callee arguments, he, hc => by
      simp only [isProper, Bool.and_eq_true] at he
      rcases List.mem_append.mp hc with hc | hc
      · exact isProper_of_mem_creations he.1 hc
      · exact isProper_of_mem_creationsOf he.2 hc
  | binary _ _ left right, he, hc => by
      simp only [isProper, Bool.and_eq_true] at he
      rcases List.mem_append.mp hc with hc | hc
      · exact isProper_of_mem_creations he.1 hc
      · exact isProper_of_mem_creations he.2 hc
  | parenthesized _ inner, he, hc => isProper_of_mem_creations (e := inner) he hc
  | creation p new initializers, he, hc => by
      rcases List.mem_cons.mp hc with rfl | hc
      · exact he
      · exact isProper_of_mem_creationsOfInitializers he hc

/-- The creations in expressions of proper names have proper names. -/
theorem isProper_of_mem_creationsOf {c : Expr} : ∀ {es : List Expr}, allProper es = true →
    c ∈ creationsOf es → c.isProper = true
  | e :: es, hes, hc => by
      simp only [allProper, Bool.and_eq_true] at hes
      rcases List.mem_append.mp hc with hc | hc
      · exact isProper_of_mem_creations hes.1 hc
      · exact isProper_of_mem_creationsOf hes.2 hc

/-- The creations in initializers of proper names have proper names. -/
theorem isProper_of_mem_creationsOfInitializers {c : Expr} : ∀ {inits : List (Initializer Expr)},
    initializersProper inits = true → c ∈ creationsOfInitializers inits → c.isProper = true
  | ⟨_, _, value⟩ :: rest, hinits, hc => by
      simp only [initializersProper, Bool.and_eq_true] at hinits
      rcases List.mem_append.mp hc with hc | hc
      · exact isProper_of_mem_creations hinits.1.2 hc
      · exact isProper_of_mem_creationsOfInitializers hinits.2 hc

end

/-- No creation in the expression has a member binding whose target is outside of the creation, nor
has the expression one whose target is outside of it. -/
structure Closed (e : Expr) : Prop where
  whole : e.hasStray = false
  parts : ∀ c ∈ e.creations, c.hasStray = false

/-- An operation that adds no stray member binding adds none inside of a conditional access either.
-/
theorem hasStray_extend {operation : Expr → Expr}
    (h : ∀ e : Expr, e.hasStray = false → (operation e).hasStray = false) {e : Expr}
    (he : e.hasStray = false) : (e.extend operation).hasStray = false := by
  cases e with
  | conditionalAccess p target access => simpa [extend, hasStray] using he
  | _ => exact h _ he

end Expr

open AnonymousObjects.Syntax.Expr (Closed)

namespace Grammar

/-! ## Derivations -/

/-- A path has the creations of its start. -/
theorem creations_path (start : Position) (path : Expr) (rest : List (Marked .colons × Ident)) :
    (pathExpr start path rest).creations = path.creations := by
  induction rest generalizing path with
  | nil => rfl
  | cons more rest ih => exact ih _

/-- A path adds no stray member binding. -/
theorem hasStray_path {start : Position} {path : Expr} (h : path.hasStray = false)
    (rest : List (Marked .colons × Ident)) : (pathExpr start path rest).hasStray = false := by
  induction rest generalizing path with
  | nil => exact h
  | cons more rest ih => exact ih h

/-- An operation that adds only closed creations keeps an expression closed. -/
theorem closed_extend {operation : Expr → Expr} {e : Expr} (more : List Expr)
    (hstray : ∀ e : Expr, e.hasStray = false → (operation e).hasStray = false)
    (hcreations : ∀ e : Expr, (operation e).creations = e.creations ++ more)
    (hmore : ∀ c ∈ more, c.hasStray = false) (he : e.Closed) : (e.extend operation).Closed where
  whole := Expr.hasStray_extend hstray he.whole
  parts := by
    rw [Expr.creations_extend more hcreations]
    intro c hc
    exact (List.mem_append.mp hc).elim (he.parts c) (hmore c)

/-- A call with closed arguments keeps an expression closed. -/
theorem closed_call {callee : Expr} {arguments : List Expr} (hcallee : callee.Closed)
    (harguments : Expr.anyHasStray arguments = false)
    (hparts : ∀ c ∈ Expr.creationsOf arguments, c.hasStray = false) :
    (callee.extend (Reading.call arguments)).Closed :=
  closed_extend _ (fun e he => by simp [Reading.call, Expr.hasStray, he, harguments])
    (fun e => by simp [Reading.call, Expr.creations]) hparts hcallee

/-- A creation with closed initializers is closed. -/
theorem closed_creation {new : Position} {inits : List (Initializer Expr)}
    (hwhole : Expr.initializerHasStray inits = false)
    (hparts : ∀ c ∈ Expr.creationsOfInitializers inits, c.hasStray = false) :
    (Reading.creation new inits).Closed where
  whole := hwhole
  parts c hc := by
    rcases List.mem_cons.mp hc with rfl | hc
    · exact hwhole
    · exact hparts c hc

section

variable [Text.CharacterNames]

mutual

/-- A derivation builds a closed expression. -/
theorem Sum.closed_build : ∀ s : Sum, s.build.Closed
  | .chain operand => operand.closed_build
  | .plus left op right =>
    ⟨by simp [Sum.build, Expr.hasStray, left.closed_build.whole, right.closed_build.whole],
      fun c hc => (List.mem_append.mp hc).elim (left.closed_build.parts c)
        (right.closed_build.parts c)⟩

/-- What a chain builds is closed. -/
theorem Chain.closed_build : ∀ operand : Chain, operand.build.Closed
  | .primary head => head.closed_build
  | .member target op name =>
    closed_extend [] (fun e he => by simpa [Reading.access, Expr.hasStray] using he)
      (fun e => by simp [Reading.access, Expr.creations]) (by simp) target.closed_build
  | .conditional target op name =>
    closed_extend [] (fun e he => by simpa [Reading.conditional, Expr.hasStray] using he)
      (fun e => by simp [Reading.conditional, Expr.creations]) (by simp) target.closed_build
  | .call callee opening closing =>
    closed_call callee.closed_build rfl (by simp [Expr.creationsOf])
  | .callWith callee opening arguments closing =>
    closed_call callee.closed_build arguments.closed_build.1 arguments.closed_build.2

/-- What arguments build is closed. -/
theorem Arguments.closed_build : ∀ arguments : Arguments,
    Expr.anyHasStray arguments.build = false ∧
      ∀ c ∈ Expr.creationsOf arguments.build, c.hasStray = false
  | .last value =>
    ⟨by simp [Arguments.build, Expr.anyHasStray, value.closed_build.whole],
      by simpa [Arguments.build, Expr.creationsOf] using value.closed_build.parts⟩
  | .more value comma rest =>
    ⟨by simp [Arguments.build, Expr.anyHasStray, value.closed_build.whole, rest.closed_build.1],
      fun c hc => (List.mem_append.mp hc).elim (value.closed_build.parts c)
        (rest.closed_build.2 c)⟩

/-- What a primary builds is closed. -/
theorem Primary.closed_build : ∀ head : Primary, head.build.Closed
  | .name token => ⟨rfl, by simp [Primary.build, Expr.creations]⟩
  | .qualifiedName first op second rest =>
    ⟨hasStray_path rfl _, by simp [Primary.build, creations_path, Expr.creations]⟩
  | .integer token => ⟨rfl, by simp [Primary.build, Expr.creations]⟩
  | .string token => ⟨rfl, by simp [Primary.build, Expr.creations]⟩
  | .trueWord token => ⟨rfl, by simp [Primary.build, Expr.creations]⟩
  | .falseWord token => ⟨rfl, by simp [Primary.build, Expr.creations]⟩
  | .nullWord token => ⟨rfl, by simp [Primary.build, Expr.creations]⟩
  | .paren opening inner closing => ⟨inner.closed_build.whole, inner.closed_build.parts⟩
  | .emptyCreation new opening closing =>
    closed_creation rfl (by simp [Expr.creationsOfInitializers])
  | .creation new opening initializers closing =>
    closed_creation initializers.closed_build.1 initializers.closed_build.2

/-- What initializers build is closed. -/
theorem Initializers.closed_build : ∀ initializers : Initializers,
    Expr.initializerHasStray initializers.build = false ∧
      ∀ c ∈ Expr.creationsOfInitializers initializers.build, c.hasStray = false
  | .last init =>
    ⟨by simp [Initializers.build, Expr.initializerHasStray, init.closed_build.whole],
      by simpa [Initializers.build, Expr.creationsOfInitializers] using init.closed_build.parts⟩
  | .trailing init comma =>
    ⟨by simp [Initializers.build, Expr.initializerHasStray, init.closed_build.whole],
      by simpa [Initializers.build, Expr.creationsOfInitializers] using init.closed_build.parts⟩
  | .more init comma rest =>
    ⟨by simp [Initializers.build, Expr.initializerHasStray, init.closed_build.whole,
        rest.closed_build.1],
      fun c hc => (List.mem_append.mp hc).elim (init.closed_build.parts c)
        (rest.closed_build.2 c)⟩

/-- What a declarator builds is closed. -/
theorem Declarator.closed_build : ∀ init : Declarator, init.build.value.Closed
  | .named _ _ value => value.closed_build
  | .implicit value => value.closed_build

end

end

/-! ## The words `new` -/

/-- Where the words `new` of a row stand. -/
def news (ts : List Token) : List (Option Position) :=
  (ts.filter (·.kind = .keyword .new)).map (some ·.position)

/-- There is no word `new` in no row. -/
@[simp] theorem news_nil : news [] = [] :=
  rfl

/-- The words `new` of two rows are those of the one and then those of the other. -/
@[simp] theorem news_append (ts us : List Token) : news (ts ++ us) = news ts ++ news us := by
  simp [news]

/-- A word `new` in front comes first. -/
@[simp] theorem news_cons_word (new : Word .new) (ts : List Token) :
    news (new.val :: ts) = some new.val.position :: news ts := by
  simp [news, new.property]

/-- Any other token adds no word `new`. -/
theorem news_cons {k : TokenKind} (hk : k ≠ .keyword .new) (t : Terminal k) (ts : List Token) :
    news (t.val :: ts) = news ts := by
  simp [news, t.property, hk]

/-- A mark is no word `new`. -/
@[simp] theorem news_cons_mark {m : Mark} (t : Marked m) (ts : List Token) :
    news (t.val :: ts) = news ts :=
  news_cons (by simp) t ts

/-- A name is no word `new`. -/
@[simp] theorem news_cons_name (t : Ident) (ts : List Token) : news (t.val :: ts) = news ts :=
  news_cons (by simp) t ts

/-- A path has no words `new`. -/
theorem news_names (rest : List (Marked .colons × Ident)) :
    news (rest.flatMap fun more => [more.1.val, more.2.val]) = [] := by
  induction rest with
  | nil => rfl
  | cons more rest ih => simp [ih]

section

variable [Text.CharacterNames]

mutual

/-- The creations of the expression that a sum builds are those of its words `new`, in order. -/
theorem Sum.news_build : ∀ s : Sum, s.build.creations.map Expr.new? = news s.tokens
  | .chain operand => operand.news_build
  | .plus left op right => by
      simp [Sum.build, Expr.creations, left.news_build, right.news_build, Sum.tokens]

/-- The creations of a chain stand at its words `new`. -/
theorem Chain.news_build : ∀ operand : Chain,
    operand.build.creations.map Expr.new? = news operand.tokens
  | .primary head => head.news_build
  | .member target op name => by
      simp [Chain.build, Expr.creations_access, target.news_build, Chain.tokens]
  | .conditional target op name => by
      simp [Chain.build, Expr.creations_conditional, target.news_build, Chain.tokens]
  | .call callee opening closing => by
      simp [Chain.build, Expr.creations_call, callee.news_build, Chain.tokens, Expr.creationsOf]
  | .callWith callee opening arguments closing => by
      simp [Chain.build, Expr.creations_call, callee.news_build, arguments.news_build,
        Chain.tokens]

/-- The creations in arguments stand at their words `new`. -/
theorem Arguments.news_build : ∀ arguments : Arguments,
    (Expr.creationsOf arguments.build).map Expr.new? = news arguments.tokens
  | .last value => by
      simp [Arguments.build, Expr.creationsOf, Arguments.tokens, value.news_build]
  | .more value comma rest => by
      simp [Arguments.build, Expr.creationsOf, Arguments.tokens, value.news_build,
        rest.news_build]

/-- The creations of a primary stand at its words `new`. -/
theorem Primary.news_build : ∀ head : Primary,
    head.build.creations.map Expr.new? = news head.tokens
  | .name token => by simp [Primary.build, Expr.creations, Primary.tokens]
  | .qualifiedName first op second rest => by
      simp [Primary.build, creations_path, Expr.creations, Primary.tokens, news_names]
  | .integer token => (news_cons (by simp) token []).symm
  | .string token => (news_cons (by simp) token []).symm
  | .trueWord token => (news_cons (by simp) token []).symm
  | .falseWord token => (news_cons (by simp) token []).symm
  | .nullWord token => (news_cons (by simp) token []).symm
  | .paren opening inner closing => by
      simp [Primary.build, Expr.creations, Primary.tokens, inner.news_build]
  | .emptyCreation new opening closing => by
      simp [Primary.build, Reading.creation, Expr.creations, Expr.creationsOfInitializers,
        Expr.new?, Primary.tokens]
  | .creation new opening initializers closing => by
      simp [Primary.build, Reading.creation, Expr.creations, Expr.new?, Primary.tokens,
        initializers.news_build]

/-- The creations in initializers stand at their words `new`. -/
theorem Initializers.news_build : ∀ initializers : Initializers,
    (Expr.creationsOfInitializers initializers.build).map Expr.new? = news initializers.tokens
  | .last init => by
      simp [Initializers.build, Expr.creationsOfInitializers, Initializers.tokens,
        init.news_build]
  | .trailing init comma => by
      simp [Initializers.build, Expr.creationsOfInitializers, Initializers.tokens,
        init.news_build]
  | .more init comma rest => by
      simp [Initializers.build, Expr.creationsOfInitializers, Initializers.tokens,
        init.news_build, rest.news_build]

/-- The creations in a declarator stand at its words `new`. -/
theorem Declarator.news_build : ∀ init : Declarator,
    init.build.value.creations.map Expr.new? = news init.tokens
  | .named name op value => by
      simp [Declarator.build, Declarator.tokens, value.news_build]
  | .implicit value => value.news_build

end

end

end Grammar

/-! ## Expressions of members -/

namespace MemberDecl

mutual

/-- The expressions of a member, and then those of its local functions. -/
def allExprs : MemberDecl → List Expr
  | ⟨_, _, _, exprs, locals⟩ => exprs ++ allExprsOf locals

/-- The expressions of several members. -/
def allExprsOf : List MemberDecl → List Expr
  | [] => []
  | m :: ms => allExprs m ++ allExprsOf ms

end

mutual

/-- The expressions of a readable member are readable. -/
theorem Readable.of_mem_allExprs {e : Expr} : ∀ {m : MemberDecl}, m.Readable → e ∈ m.allExprs →
    e.Readable
  | ⟨_, _, _, exprs, locals⟩, .member _ _ _ _ _ hexprs hlocals, he => by
      rcases List.mem_append.mp he with he | he
      · exact hexprs e he
      · exact readable_of_mem_allExprsOf hlocals he

/-- The expressions of readable members are readable. -/
theorem readable_of_mem_allExprsOf {e : Expr} : ∀ {ms : List MemberDecl},
    (∀ m ∈ ms, m.Readable) → e ∈ allExprsOf ms → e.Readable
  | m :: ms, hms, he => by
      rcases List.mem_append.mp he with he | he
      · exact Readable.of_mem_allExprs (hms m (by simp)) he
      · exact readable_of_mem_allExprsOf (fun n hn => hms n (by simp [hn])) he

end

end MemberDecl

namespace Grammar

/-- The expressions of a body are built from sums in it. -/
theorem Body.exists_sum [Text.CharacterNames] (b : Body) {e : Expr}
    (he : e ∈ b.exprs ++ MemberDecl.allExprsOf b.locals) :
    ∃ s : Sum, s.build = e ∧ s.tokens <:+: b.tokens := by
  induction b with
  | nil => simp [exprs, locals, MemberDecl.allExprsOf] at he
  | statement value semicolon rest ih =>
      simp only [exprs, locals, List.cons_append, List.mem_cons] at he
      rcases he with rfl | he
      · exact ⟨value, rfl, (List.prefix_append _ _).isInfix⟩
      · obtain ⟨s, hs, htokens⟩ := ih he
        have hrest : rest.tokens <:+ tokens (.statement value semicolon rest) :=
          (List.suffix_cons _ _).trans (List.suffix_append _ _)
        exact ⟨s, hs, htokens.trans hrest.isInfix⟩
  | localFunction word name opening inner closing rest ihInner ihRest =>
      simp only [exprs, locals, MemberDecl.allExprsOf, MemberDecl.allExprs, List.mem_append] at he
      -- The expressions of the function stand in its body; those after it stand behind its bracket.
      have hinside : inner.tokens ++ closing.val :: rest.tokens <:+
          tokens (.localFunction word name opening inner closing rest) :=
        ((List.suffix_cons _ _).trans (List.suffix_cons _ _)).trans (List.suffix_cons _ _)
      have hinner := (List.prefix_append inner.tokens _).isInfix.trans hinside.isInfix
      have hrest := (((List.suffix_cons _ rest.tokens).trans
        (List.suffix_append _ _)).trans hinside).isInfix
      rcases he with he | he | he
      · obtain ⟨s, hs, htokens⟩ := ihRest (List.mem_append_left _ he)
        exact ⟨s, hs, htokens.trans hrest⟩
      · obtain ⟨s, hs, htokens⟩ := ihInner (List.mem_append.mpr he)
        exact ⟨s, hs, htokens.trans hinner⟩
      · obtain ⟨s, hs, htokens⟩ := ihRest (List.mem_append_right _ he)
        exact ⟨s, hs, htokens.trans hrest⟩

/-- The expressions of a member are built from sums in it. -/
theorem MemberItem.exists_sum [Text.CharacterNames] (m : MemberItem) {e : Expr}
    (he : e ∈ m.build.allExprs) : ∃ s : Sum, s.build = e ∧ s.tokens <:+: m.tokens := by
  cases m with
  | value word name op init semicolon =>
      obtain rfl : e = init.build := by
        simpa [build, MemberDecl.allExprs, MemberDecl.allExprsOf] using he
      have hbehind : init.tokens ++ [semicolon.val] <:+
          tokens (.value word name op init semicolon) :=
        ((List.suffix_cons _ _).trans (List.suffix_cons _ _)).trans (List.suffix_cons _ _)
      exact ⟨init, rfl, (List.prefix_append _ _).isInfix.trans hbehind.isInfix⟩
  | body words opening inner closing =>
      obtain ⟨s, hs, htokens⟩ := inner.exists_sum he
      have hbehind : inner.tokens ++ [closing.val] <:+ tokens (.body words opening inner closing) :=
        (List.suffix_cons _ _).trans (List.suffix_append _ _)
      exact ⟨s, hs, htokens.trans ((List.prefix_append _ _).isInfix.trans hbehind.isInfix)⟩

/-- A declaration has its tokens within those of the program. -/
theorem Program.tokens_item {d : Program} {item : Item} (h : item ∈ d) :
    item.tokens <:+: d.tokens := by
  obtain ⟨before, behind, rfl⟩ := List.append_of_mem h
  exact ⟨before.flatMap Item.tokens, behind.flatMap Item.tokens, by simp [Program.tokens]⟩

/-- The expressions of a program are built from sums in it. -/
theorem Program.exists_sum [Text.CharacterNames] (d : Program) {m : MemberDecl}
    (hm : m ∈ d.build.members) {e : Expr}
    (he : e ∈ m.allExprs) : ∃ s : Sum, s.build = e ∧ s.tokens <:+: d.tokens := by
  obtain ⟨item, hitem, hmember⟩ := List.mem_filterMap.mp hm
  cases item with
  | member item =>
      obtain rfl := Option.some.inj hmember
      obtain ⟨s, hs, htokens⟩ := item.exists_sum he
      exact ⟨s, hs, htokens.trans (Program.tokens_item hitem)⟩
  | type | global | function => cases hmember

end Grammar

/-- The expressions that source text is read into: whole texts, and those of the members of a
program and of their local functions. -/
inductive Expr.FromSource [Text.CharacterNames] : Expr → Prop where
  | text (source e) : Expr.parse source = .ok e → FromSource e
  | member (source p m e) :
      Program.parse source = .ok p → m ∈ p.members → e ∈ m.allExprs → FromSource e

namespace Expr.FromSource

variable [Text.CharacterNames] {e c : Expr}

/-- Expressions of source text are readable. -/
theorem readable (h : e.FromSource) : e.Readable := by
  cases h with
  | text source _ he => exact Expr.parse_readable he
  | member source p m _ hp hm he => exact (Program.parse_readable hp m hm).of_mem_allExprs he

/-- Expressions of source text are built by a derivation. -/
theorem exists_sum (h : e.FromSource) : ∃ s : Grammar.Sum, s.build = e := by
  cases h with
  | text source _ he =>
      obtain ⟨r, hfeed, hvalue⟩ := readText_eq_ok he
      obtain ⟨s, -, hs⟩ := Grammar.Sum.exists_of_feed hfeed hvalue
      exact ⟨s, hs⟩
  | member source p m _ hp hm he =>
      obtain ⟨d, -, rfl⟩ := Program.exists_derivation hp
      obtain ⟨s, hs, -⟩ := d.exists_sum hm he
      exact ⟨s, hs⟩

end Expr.FromSource

end AnonymousObjects.Syntax
