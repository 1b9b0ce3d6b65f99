import AnonymousObjects.Proofs.Syntax.Grammar.Programs
import AnonymousObjects.Proofs.Syntax.Printing.RoundTrip

/-!
# Numbers in programs

Every literal in a member of a program that has been read is that of a token, and the digits of an
integer token are limited in number. So `Program.parse_numbers` says that the integers in a program
can be written again within the limit, and printing any part of it does not fail.
-/

namespace AnonymousObjects.Syntax

namespace MemberDecl

mutual

/-- The literals in a member and in its local functions. -/
def literals : MemberDecl → List Literal
  | ⟨_, _, _, exprs, locals⟩ => Expr.literalsOf exprs ++ literalsOf locals

/-- The literals in several members. -/
def literalsOf : List MemberDecl → List Literal
  | [] => []
  | m :: ms => literals m ++ literalsOf ms

end

end MemberDecl

variable [Text.CharacterNames]

namespace Grammar

/-- The word `local` is no literal. -/
@[simp] theorem literal?_local : ∀ t : Word .local, t.val.literal? = none
  | ⟨⟨_, _, _⟩, rfl⟩ => rfl

/-- The literals of a body are those of its tokens. -/
theorem Body.literals_subset (b : Body) :
    Expr.literalsOf b.exprs ++ MemberDecl.literalsOf b.locals ⊆
      b.tokens.filterMap Token.literal? := by
  induction b with
  | nil => simp [exprs, locals, Expr.literalsOf, MemberDecl.literalsOf]
  | statement value semicolon rest ih =>
      intro l hl
      simp only [exprs, locals, Expr.literalsOf, List.append_assoc, List.mem_append,
        value.literals_build] at hl
      simp only [tokens, List.filterMap_append, List.filterMap_cons, literal?_mark, List.mem_append]
      rcases hl with hl | hl
      · exact .inl hl
      · exact .inr (ih (List.mem_append.mpr hl))
  | localFunction word name opening inner closing rest ihInner ihRest =>
      intro l hl
      simp only [exprs, locals, MemberDecl.literalsOf, MemberDecl.literals, List.mem_append] at hl
      simp only [tokens, List.filterMap_append, List.filterMap_cons, literal?_mark, literal?_name,
        literal?_local, List.mem_append]
      rcases hl with hl | hl | hl
      · exact .inr (ihRest (List.mem_append_left _ hl))
      · exact .inl (ihInner (List.mem_append.mpr hl))
      · exact .inr (ihRest (List.mem_append_right _ hl))

/-- The literals of a member are those of its tokens. -/
theorem MemberItem.literals_subset (m : MemberItem) :
    m.build.literals ⊆ m.tokens.filterMap Token.literal? := by
  intro l hl
  cases m with
  | value word name op init semicolon =>
      simp only [build, MemberDecl.literals, MemberDecl.literalsOf, Expr.literalsOf,
        List.append_nil, init.literals_build] at hl
      have htokens : init.tokens.Sublist (tokens (.value word name op init semicolon)) :=
        (((List.sublist_append_left _ _).cons _).cons _).cons _
      exact (htokens.filterMap Token.literal?).subset hl
  | body words opening inner closing =>
      have htokens : inner.tokens.Sublist (tokens (.body words opening inner closing)) :=
        ((List.sublist_append_left _ _).cons _).trans (List.sublist_append_right _ _)
      exact (htokens.filterMap Token.literal?).subset (inner.literals_subset hl)

/-- The literals in the members of a program are those of its tokens. -/
theorem Program.literals_subset (d : Program) {m : MemberDecl} (hm : m ∈ d.build.members) :
    m.literals ⊆ d.tokens.filterMap Token.literal? := by
  obtain ⟨item, hitem, hmember⟩ := List.mem_filterMap.mp hm
  cases item with
  | member item =>
      obtain rfl := Option.some.inj hmember
      intro l hl
      obtain ⟨t, ht, hliteral⟩ := List.mem_filterMap.mp (item.literals_subset hl)
      exact List.mem_filterMap.mpr ⟨t, List.mem_flatMap.mpr ⟨_, hitem, ht⟩, hliteral⟩
  | type | global | function => cases hmember

end Grammar

/-- A program that has been read has a derivation. -/
theorem Program.exists_derivation {source : List Char} {p : Program}
    (hp : Program.parse source = .ok p) :
    ∃ d : Grammar.Program, d.tokens = (Tokens.ofText .program source).list ∧ d.build = p :=
  Grammar.Program.feed_iff_derivation.mp (readText_eq_ok hp)

/-- A number that a token stands for is written within the limit. -/
theorem Token.length_of_literal? {v : Vocabulary} {t : Token} {l : Literal} {n : Int}
    (hspelled : t.Spelled v) (hfault : t.fault? = none) (hl : t.literal? = some l)
    (hn : l.value = .int n) : (toString n).length ≤ Text.Decimal.digitLimit := by
  obtain ⟨kind, text, position⟩ := t
  cases kind with
  | integer =>
      obtain rfl := Option.some.inj hl
      obtain rfl := LiteralValue.int.inj hn
      exact Token.length_number hspelled hfault rfl
  | string =>
      obtain rfl := Option.some.inj hl
      cases hn
  | keyword k => cases k <;> cases hl <;> cases hn
  | name | mark => cases hl

/-- The integers in a program that has been read are written within the limit. -/
theorem Program.parse_numbers {source : List Char} {p : Program}
    (hp : Program.parse source = .ok p) :
    ∀ m ∈ p.members, ∀ l ∈ m.literals, ∀ n, l.value = .int n →
      (toString n).length ≤ Text.Decimal.digitLimit := by
  obtain ⟨d, hd, rfl⟩ := Program.exists_derivation hp
  have hspelled := Tokens.ofText_spelled .program source
  have hfaults := faultIn_eq_none_iff.mp (faultIn_of_readText hp)
  intro m hm l hl n hn
  obtain ⟨t, ht, hliteral⟩ := List.mem_filterMap.mp (d.literals_subset hm hl)
  rw [hd] at ht
  exact Token.length_of_literal? (hspelled t ht) (hfaults t ht) hliteral hn

end AnonymousObjects.Syntax
