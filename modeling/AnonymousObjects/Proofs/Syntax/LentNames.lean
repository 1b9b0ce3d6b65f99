import AnonymousObjects.Proofs.Syntax.Creations
import AnonymousObjects.Proofs.Syntax.Parts
import AnonymousObjects.Text.NameTable

/-!
# Names at the end of a text

The name that an expression lends to a member stands at the end of its text, at whatever depth of
the tree: on the right of a path, in an access to a member, or in the innermost second part of a
conditional access. `Chain.ending` says so of operands and `Expr.parse_lentName` of whole texts:
an expression that is no sum lends a name exactly when its last token is one, and then it lends
that.
-/

namespace AnonymousObjects.Syntax

namespace Expr

/-- A sum. -/
def isSum : Expr → Bool
  | binary _ _ _ _ => true
  | _ => false

/-- Where a conditional access takes its name from. -/
theorem lendsName_conditionalAccess (p : Option Position) (target access : Expr) :
    (conditionalAccess p target access).lendsName =
      (access.isMemberBinding || access.lendsName) := by
  cases access <;> rfl

/-- What is to be known of an expression in order to tell the name that a text lends which ends with
it. -/
structure Lends (e : Expr) (name : Option Name) : Prop where
  lends : e.lendsName = name.isSome
  lent : e.lentName = name
  bound : e.isMemberBinding = false
  operand : e.isSum = false

/-- An operation that lends a name, or none, does so at the end of any chain. The induction goes to
the innermost second part, where the operation is applied. -/
theorem Lends.extend {operation : Expr → Expr} {name : Option Name}
    (h : ∀ e : Expr, (operation e).Lends name) (e : Expr) : (e.extend operation).Lends name := by
  fun_induction Expr.extend operation e with
  | case1 p target access ih =>
    refine ⟨?_, ih.lent, rfl, rfl⟩
    rw [lendsName_conditionalAccess, ih.bound, Bool.false_or]
    exact ih.lends
  | case2 e _ => exact h e

/-- A member access lends the name of the member. -/
theorem lends_access (name : Name) (e : Expr) :
    (e.extend (Reading.access name)).Lends (some name) :=
  .extend (by intro e; exact ⟨rfl, rfl, rfl, rfl⟩) e

/-- A conditional access to a member lends the name of the member. -/
theorem lends_conditional (name : Name) (e : Expr) :
    (e.extend (Reading.conditional name)).Lends (some name) :=
  .extend (by intro e; exact ⟨rfl, rfl, rfl, rfl⟩) e

/-- A call lends no name. -/
theorem lends_call (arguments : List Expr) (e : Expr) :
    (e.extend (Reading.call arguments)).Lends none :=
  .extend (by intro e; exact ⟨rfl, rfl, rfl, rfl⟩) e

end Expr

namespace Grammar

/-- The name that a token lends, if it is a name. -/
def lentBy (t : Token) : Option Name :=
  if t.kind = .name then some (Reading.nameOf t) else none

/-- A name lends itself. -/
theorem lentBy_name (t : Ident) : lentBy t.val = some (Reading.nameOf t.val) :=
  if_pos t.property

/-- No other token lends a name. -/
theorem lentBy_of_kind {k : TokenKind} (hk : k ≠ .name) (t : Terminal k) : lentBy t.val = none :=
  if_neg (by rw [t.property]; exact hk)

/-- `Ending ts e` says that the expression `e` lends the name that is the last token of `ts`, or
none if that is no name. -/
def Ending (ts : List Token) (e : Expr) : Prop :=
  ∃ front t, ts = front ++ [t] ∧ e.Lends (lentBy t)

/-- An expression that ends in another token than a name lends none. -/
theorem ending_leaf {k : TokenKind} (hk : k ≠ .name) (front : List Token) (t : Terminal k)
    {e : Expr} (h : e.Lends none) : Ending (front ++ [t.val]) e :=
  ⟨front, t.val, rfl, by rwa [lentBy_of_kind hk]⟩

/-- An expression may lend the name that it ends in. -/
theorem ending_name (front : List Token) (t : Ident) {e : Expr}
    (h : e.Lends (some (Reading.nameOf t.val))) : Ending (front ++ [t.val]) e :=
  ⟨front, t.val, rfl, by rwa [lentBy_name]⟩

/-- The last name of a path. -/
theorem ending_path (start : Position) (path : Expr) (first : Token)
    (names : List (Marked .colons × Ident)) (hnames : names ≠ []) :
    Ending (first :: names.flatMap fun more => [more.1.val, more.2.val])
      (pathExpr start path names) := by
  obtain rfl | ⟨before, last, rfl⟩ := List.eq_nil_or_concat names
  · exact absurd rfl hnames
  · rw [List.concat_eq_append, pathExpr_append]
    refine ⟨first :: (before.flatMap fun more => [more.1.val, more.2.val]) ++ [last.1.val],
      last.2.val, by simp, ?_⟩
    rw [lentBy_name]
    exact ⟨rfl, rfl, rfl, rfl⟩

/-- A primary expression lends a name if it ends with one. -/
theorem Primary.ending [Text.CharacterNames] (head : Primary) : Ending head.tokens head.build := by
  have hplain {e : Expr} (hlends : e.lendsName = false) (hlent : e.lentName = none)
      (hbound : e.isMemberBinding = false) (hsum : e.isSum = false) : e.Lends none :=
    ⟨hlends, hlent, hbound, hsum⟩
  cases head with
  | name token => exact ending_name [] token ⟨rfl, rfl, rfl, rfl⟩
  | qualifiedName first op second rest => exact ending_path _ _ _ ((op, second) :: rest) (by simp)
  | integer token | string token | trueWord token | falseWord token | nullWord token =>
      exact ending_leaf (by simp) [] token (hplain rfl rfl rfl rfl)
  | paren opening inner closing =>
      exact ending_leaf (by simp) (opening.val :: inner.tokens) closing (hplain rfl rfl rfl rfl)
  | emptyCreation new opening closing =>
      exact ending_leaf (by simp) [new.val, opening.val] closing (hplain rfl rfl rfl rfl)
  | creation new opening initializers closing =>
      exact ending_leaf (by simp) (new.val :: opening.val :: initializers.tokens) closing
        (hplain rfl rfl rfl rfl)

/-- An operand lends a name if it ends with one. -/
theorem Chain.ending [Text.CharacterNames] (operand : Chain) :
    Ending operand.tokens operand.build := by
  cases operand with
  | primary head => exact head.ending
  | member target op name =>
      simpa [tokens, build] using
        ending_name (target.tokens ++ [op.val]) name (Expr.lends_access _ _)
  | conditional target op name =>
      simpa [tokens, build] using
        ending_name (target.tokens ++ [op.val]) name (Expr.lends_conditional _ _)
  | call callee opening closing =>
      simpa [tokens, build] using ending_leaf (by simp) (callee.tokens ++ [opening.val]) closing
        (Expr.lends_call [] _)
  | callWith callee opening arguments closing =>
      simpa [tokens, build] using
        ending_leaf (by simp) (callee.tokens ++ opening.val :: arguments.tokens) closing
          (Expr.lends_call arguments.build _)

end Grammar

/-- An expression lends a name exactly when it is no sum and its text ends with a name, and it lends
that name. Where it lends none, there is none to be taken from it. -/
theorem Expr.parse_lentName [Text.CharacterNames] {source : List Char} {e : Expr}
    (h : Expr.parse source = .ok e) :
    ∃ t, (Tokens.ofText .expression source).list.getLast? = some t ∧
      (e.lendsName = true ↔
        (¬ ∃ p left right, e = .binary p "+" left right) ∧ t.kind = .name) ∧
      (e.lendsName = true → e.lentName = some ⟨t.text, some t.position⟩) ∧
      (e.lendsName = false → e.lentName = none) := by
  obtain ⟨r, hfeed, hvalue⟩ := readText_eq_ok h
  obtain ⟨s, hs, rfl⟩ := Grammar.Sum.exists_of_feed hfeed hvalue
  -- The last token of an expression is that of its last operand.
  rw [← hs]
  cases s with
  | chain operand =>
      obtain ⟨front, t, htokens, hlends⟩ := operand.ending
      have hsum : ¬ ∃ p left right, operand.build = .binary p "+" left right := by
        rintro ⟨p, left, right, heq⟩
        simpa [heq, isSum] using hlends.operand
      refine ⟨t, by simp [Grammar.Sum.tokens, htokens], ?_, ?_, ?_⟩
      · simp [Grammar.Sum.build, hlends.lends, Grammar.lentBy, hsum]
      · intro hlent
        rw [Grammar.Sum.build, hlends.lends, Grammar.lentBy] at hlent
        split at hlent
        · next hkind => exact hlends.lent.trans (if_pos hkind)
        · cases hlent
      · intro hlent
        rw [Grammar.Sum.build, hlends.lends] at hlent
        exact hlends.lent.trans (by simpa using hlent)
  | plus left op right =>
      obtain ⟨front, t, htokens, -⟩ := right.ending
      have hlast : (Grammar.Sum.plus left op right).tokens =
          (left.tokens ++ op.val :: front) ++ [t] := by simp [Grammar.Sum.tokens, htokens]
      refine ⟨t, by rw [hlast, List.getLast?_concat], ?_, ?_, ?_⟩
      · simp [Grammar.Sum.build, lendsName]
      · simp [Grammar.Sum.build, lendsName]
      · simp [Grammar.Sum.build, lentName]

/-- The name of `a::b.c?.d?.e` is its last, whatever stands in the comment after it. -/
theorem parse_lentName_of_comment :
    let source := "a::b.c?.d?.e // + f".toList
    ∃ e, Expr.parse source = .ok e ∧
      ∃ t, (Tokens.ofText .expression source).list.getLast? = some t ∧
        (e.lendsName = true ↔
          (¬ ∃ p left right, e = .binary p "+" left right) ∧ t.kind = .name) ∧
        (e.lendsName = true → e.lentName = some ⟨t.text, some t.position⟩) ∧
        (e.lendsName = false → e.lentName = none) := by
  intro source
  let name (text : String) (column : Nat) : Name := ⟨text, some ⟨1, column⟩⟩
  let binding (text : String) (column : Nat) : Expr :=
    .memberBinding (some ⟨1, column⟩) (name text column)
  let path : Expr := .qualifiedName (some ⟨1, 1⟩) (.identifier (name "a" 1)) (name "b" 4)
  let target : Expr := .memberAccess (some ⟨1, 1⟩) path (name "c" 6)
  have hparse : Expr.parse source = .ok (.conditionalAccess (some ⟨1, 1⟩) target
      (.conditionalAccess (some ⟨1, 9⟩) (binding "d" 9) (binding "e" 12))) := rfl
  exact ⟨_, hparse, Expr.parse_lentName hparse⟩

end AnonymousObjects.Syntax
