import AnonymousObjects.Proofs.Syntax.Creations
import AnonymousObjects.Proofs.Syntax.Parts

/-!
# Expressions are located at their first tokens

`Located e row` says that a row of tokens is the text of an expression and that everything in the
expression is located at the first token of its own text. A derivation builds an expression that is
located so (`Sum.located_build`), and `Program.exists_locatedAt` says so of all that stands in a
program from source text.
-/

namespace AnonymousObjects.Syntax

open Grammar

/-- The place of the first token of a row. -/
def startOf (row : List Token) : Option Position :=
  row.head?.map (·.position)

/-- A position is that of a token of a row. -/
def TokenAt (row : List Token) (p : Option Position) : Prop :=
  ∃ t ∈ row, p = some t.position

/-- Items with commas between them, where `text` says which rows are the text of an item. -/
inductive Separated {α : Type} (text : α → List Token → Prop) : List α → List Token → Prop where
  | nil : Separated text [] []
  | last (x row) : text x row → Separated text [x] row
  | more (x row comma xs rows) :
      text x row → comma.kind = .mark .comma → Separated text xs rows →
      Separated text (x :: xs) (row ++ comma :: rows)

/-- A row is the text of an initializer, which is located at its start. -/
inductive LocatedInitializer (text : Expr → List Token → Prop) :
    Initializer Expr → List Token → Prop where
  | named (name equal value row) :
      name.kind = .name → equal.kind = .mark .equal → text value row →
      LocatedInitializer text ⟨some name.position, some (Reading.nameOf name), value⟩
        (name :: equal :: row)
  | implicit (value row) :
      text value row → LocatedInitializer text ⟨startOf row, none, value⟩ row

/-- A row is the text of an expression. The expression is located at its start, and so is
everything in it at the start of its own text. What a conditional access does when its target is not
null has a text that starts with the name of the member. -/
inductive Located [Text.CharacterNames] : Expr → List Token → Prop where
  | identifier (name) : name.kind = .name → Located (.identifier (Reading.nameOf name)) [name]
  | memberAccess (target row dot name) :
      Located target row → dot.kind = .mark .dot → name.kind = .name →
      Located (.memberAccess (startOf row) target (Reading.nameOf name)) (row ++ [dot, name])
  | qualifiedName (left row colons name) :
      Located left row → colons.kind = .mark .colons → name.kind = .name →
      Located (.qualifiedName (startOf row) left (Reading.nameOf name)) (row ++ [colons, name])
  | conditionalAccess (target row mark access rest) :
      Located target row → mark.kind = .mark .questionDot → Located access rest →
      Located (.conditionalAccess (startOf row) target access) (row ++ mark :: rest)
  | memberBinding (name) :
      name.kind = .name →
      Located (.memberBinding (some name.position) (Reading.nameOf name)) [name]
  | invocation (callee row opening arguments rows closing) :
      Located callee row → opening.kind = .mark .openParen → Separated Located arguments rows →
      closing.kind = .mark .closeParen →
      Located (.invocation (startOf row) callee arguments) (row ++ opening :: (rows ++ [closing]))
  | literal (token value) :
      token.literal? = some value → Located (.literal (some token.position) value) [token]
  | binary (left row plus right rest) :
      Located left row → plus.kind = .mark .plus → Located right rest →
      Located (.binary (startOf row) "+" left right) (row ++ plus :: rest)
  | parenthesized (opening inner row closing) :
      opening.kind = .mark .openParen → Located inner row → closing.kind = .mark .closeParen →
      Located (.parenthesized (some opening.position) inner) (opening :: (row ++ [closing]))
  | creation (new opening initializers rows comma closing) :
      new.kind = .keyword .new → opening.kind = .mark .openBrace →
      Separated (LocatedInitializer Located) initializers rows →
      (∀ t ∈ comma, t.kind = .mark .comma) → closing.kind = .mark .closeBrace →
      Located (.creation (some new.position) (some new.position) initializers)
        (new :: opening :: (rows ++ Option.toList comma ++ [closing]))

variable {α : Type} {text : α → List Token → Prop} {x : α} {xs : List α} {row rows : List Token}
  {e d : Expr} {p : Option Position}

/-- A position of a token of a row is one of a longer row. -/
theorem TokenAt.mono (h : TokenAt row p) (hrows : row ⊆ rows) : TokenAt rows p := by
  obtain ⟨t, ht, hp⟩ := h
  exact ⟨t, hrows ht, hp⟩

/-- A row that is not empty starts where it did when others follow. -/
theorem startOf_append (h : row ≠ []) (rows : List Token) :
    startOf (row ++ rows) = startOf row := by
  cases row with
  | nil => exact absurd rfl h
  | cons t row => rfl

/-- An item has its text within that of all items. -/
theorem Separated.exists_row (h : Separated text xs rows) (hx : x ∈ xs) :
    ∃ row, row <:+: rows ∧ text x row := by
  induction h with
  | nil => cases hx
  | last y row hy =>
      obtain rfl := List.mem_singleton.mp hx
      exact ⟨row, List.infix_rfl, hy⟩
  | more y row comma xs rows hy _ _ ih =>
      rcases List.mem_cons.mp hx with rfl | hx
      · exact ⟨row, (List.prefix_append _ _).isInfix, hy⟩
      · obtain ⟨row', hrow, hx⟩ := ih hx
        have hrest : rows <:+: row ++ comma :: rows :=
          ((List.suffix_cons comma rows).trans (List.suffix_append _ _)).isInfix
        exact ⟨row', hrow.trans hrest, hx⟩

namespace LocatedInitializer

variable {text : Expr → List Token → Prop} {init : Initializer Expr}

/-- An initializer is located at the first token of its text. -/
theorem position_eq (h : LocatedInitializer text init row) : init.position = startOf row := by
  cases h <;> rfl

/-- The value of an initializer has its text within that of the initializer. -/
theorem exists_value (h : LocatedInitializer text init row) :
    ∃ own, own <:+: row ∧ text init.value own := by
  cases h with
  | named name equal value own _ _ hvalue =>
      exact ⟨own, ((List.suffix_cons _ _).trans (List.suffix_cons _ _)).isInfix, hvalue⟩
  | implicit value _ hvalue => exact ⟨row, List.infix_rfl, hvalue⟩

end LocatedInitializer

namespace Located

variable [Text.CharacterNames]

/-- No expression has an empty text. -/
theorem ne_nil (h : Located e row) : row ≠ [] := by
  cases h <;> simp

/-- An expression is located at the first token of its text. -/
theorem position_eq (h : Located e row) : e.position = startOf row := by
  cases h with
  | memberAccess _ _ _ _ htarget | qualifiedName _ _ _ _ htarget
  | conditionalAccess _ _ _ _ _ htarget | invocation _ _ _ _ _ _ htarget
  | binary _ _ _ _ _ htarget => exact (startOf_append htarget.ne_nil _).symm
  | identifier | memberBinding | literal | parenthesized | creation => rfl

/-- An expression is located at a token of its text. -/
theorem tokenAt_position (h : Located e row) : TokenAt row e.position := by
  have hposition := h.position_eq
  cases row with
  | nil => exact absurd rfl h.ne_nil
  | cons t row => exact ⟨t, List.mem_cons_self, hposition⟩

/-- An initializer of a creation has its text within that of the creation. -/
theorem exists_row_of_mem_initializers {p new : Option Position}
    {initializers : List (Initializer Expr)} {init : Initializer Expr}
    (h : Located (.creation p new initializers) row) (hinit : init ∈ initializers) :
    ∃ own, own <:+: row ∧ LocatedInitializer Located init own := by
  cases h with
  | creation new opening _ rows comma closing _ _ hrows =>
      obtain ⟨own, hown, hlocated⟩ := hrows.exists_row hinit
      refine ⟨own, hown.trans ?_, hlocated⟩
      rw [List.append_assoc]
      exact (List.prefix_append _ _).isInfix.trans
        ((List.suffix_cons _ _).trans (List.suffix_cons _ _)).isInfix

/-- A part of an expression has its text within that of the whole. -/
theorem exists_row_of_mem_parts (h : Located e row) (hd : d ∈ e.parts) :
    ∃ own, own <:+: row ∧ Located d own := by
  -- The case of creations is known for initializers, and needs the derivation as a whole.
  have hwhole := h
  cases h with
  | identifier | memberBinding | literal => simp [Expr.parts] at hd
  | memberAccess target row _ _ htarget | qualifiedName target row _ _ htarget =>
      obtain rfl : d = target := by simpa [Expr.parts] using hd
      exact ⟨row, (List.prefix_append _ _).isInfix, htarget⟩
  | conditionalAccess target row mark access rest htarget _ haccess =>
      obtain rfl | rfl : d = target ∨ d = access := by simpa [Expr.parts] using hd
      · exact ⟨row, (List.prefix_append _ _).isInfix, htarget⟩
      · exact ⟨rest, ((List.suffix_cons _ _).trans (List.suffix_append _ _)).isInfix, haccess⟩
  | invocation callee row opening arguments rows closing hcallee _ harguments =>
      obtain rfl | hmem : d = callee ∨ d ∈ arguments := by simpa [Expr.parts] using hd
      · exact ⟨row, (List.prefix_append _ _).isInfix, hcallee⟩
      · obtain ⟨own, hown, hd⟩ := harguments.exists_row hmem
        have hrows : rows <:+: row ++ opening :: (rows ++ [closing]) :=
          (List.prefix_append _ _).isInfix.trans
            ((List.suffix_cons _ _).trans (List.suffix_append _ _)).isInfix
        exact ⟨own, hown.trans hrows, hd⟩
  | binary left row _ right rest hleft _ hright =>
      obtain rfl | rfl : d = left ∨ d = right := by simpa [Expr.parts] using hd
      · exact ⟨row, (List.prefix_append _ _).isInfix, hleft⟩
      · exact ⟨rest, ((List.suffix_cons _ _).trans (List.suffix_append _ _)).isInfix, hright⟩
  | parenthesized opening inner row closing _ hinner =>
      obtain rfl : d = inner := by simpa [Expr.parts] using hd
      exact ⟨row, (List.prefix_append _ _).isInfix.trans (List.suffix_cons _ _).isInfix, hinner⟩
  | creation new opening initializers rows comma closing _ _ hinits =>
      obtain ⟨init, hinit, rfl⟩ : ∃ init ∈ initializers, init.value = d := by
        simpa [Expr.parts] using hd
      obtain ⟨own, hown, hlocated⟩ := hwhole.exists_row_of_mem_initializers hinit
      obtain ⟨value, hvalue, hd⟩ := hlocated.exists_value
      exact ⟨value, hvalue.trans hown, hd⟩

/-- Whatever stands in an expression has its text within that of the whole. -/
theorem exists_row (h : Located e row) (hd : d.Within e) : ∃ own, own <:+: row ∧ Located d own := by
  induction hd generalizing row with
  | refl => exact ⟨row, List.infix_rfl, h⟩
  | tail _ hpart ih =>
      obtain ⟨whole, hwhole, hpart⟩ := h.exists_row_of_mem_parts hpart
      obtain ⟨own, hown, hd⟩ := ih hpart
      exact ⟨own, hown.trans hwhole, hd⟩

/-- A postfix operation has its tokens behind those of its target. -/
theorem extend {operation : Expr → Expr} {more : List Token}
    (hoperation : ∀ {e row}, Located e row → Located (operation e) (row ++ more))
    (h : Located e row) : Located (e.extend operation) (row ++ more) := by
  fun_induction Expr.extend operation e generalizing row with
  | case1 p target access ih =>
      cases h with
      | conditionalAccess _ row mark _ rest htarget hmark haccess =>
          rw [List.append_assoc, List.cons_append]
          exact .conditionalAccess target row mark _ _ htarget hmark (ih haccess)
  | case2 e _ => exact hoperation h

end Located

/-- The name of the member binding that an expression begins with, in what a conditional access does
when its target is not null. -/
def Expr.boundName? : Expr → Option Name
  | memberBinding _ name => some name
  | memberAccess _ target _ | conditionalAccess _ target _ => boundName? target
  | invocation _ callee _ => boundName? callee
  | _ => none

/-- `e.LocatedAt t rest` says that the text of `e` is the token `t` and then the row `rest`, and
that `e` is located at `t`. -/
structure Expr.LocatedAt [Text.CharacterNames] (e : Expr) (t : Token) (rest : List Token) :
    Prop where
  text : Located e (t :: rest)
  position : e.position = some t.position
  /-- What begins with a bound member is located at the name of that. -/
  boundName : ∀ name, e.boundName? = some name → name = Reading.nameOf t
  /-- A creation has `new` as its first token. -/
  new : ∀ p new inits, e = .creation p new inits → t.kind = .keyword .new ∧ new = some t.position
  /-- Each initializer is located at the token with which its own text starts. -/
  initializers : ∀ p new inits, e = .creation p new inits → ∀ init ∈ inits,
    ∃ start more, start :: more <:+: t :: rest ∧
      LocatedInitializer Located init (start :: more) ∧ init.position = some start.position

/-- No initializer has an empty text. -/
theorem LocatedInitializer.ne_nil [Text.CharacterNames] {init : Initializer Expr}
    (h : LocatedInitializer Located init row) : row ≠ [] := by
  cases h with
  | named => simp
  | implicit _ _ hvalue => exact hvalue.ne_nil

namespace Located

variable [Text.CharacterNames] {t : Token} {rest : List Token} {name : Name}

/-- A bound name is the first token of the text. -/
theorem boundName_eq (h : Located e row) (hname : e.boundName? = some name) :
    ∃ t ∈ row.head?, name = Reading.nameOf t := by
  fun_induction Expr.boundName? e generalizing row with
  | case1 p bound =>
      obtain rfl := Option.some.inj hname
      cases h with
      | memberBinding token => exact ⟨token, rfl, rfl⟩
  | case2 p target accessed ih =>
      cases h with
      | memberAccess _ row _ _ htarget =>
        obtain ⟨t, ht, heq⟩ := ih htarget hname
        exact ⟨t, List.mem_head?_append_of_mem_head? ht, heq⟩
  | case3 p target access ih =>
      cases h with
      | conditionalAccess _ row _ _ _ htarget =>
        obtain ⟨t, ht, heq⟩ := ih htarget hname
        exact ⟨t, List.mem_head?_append_of_mem_head? ht, heq⟩
  | case4 p callee arguments ih =>
      cases h with
      | invocation _ row _ _ _ _ hcallee =>
        obtain ⟨t, ht, heq⟩ := ih hcallee hname
        exact ⟨t, List.mem_head?_append_of_mem_head? ht, heq⟩
  | case5 => cases hname

/-- An expression whose text starts with a token is located at it. -/
theorem locatedAt (h : Located e (t :: rest)) : e.LocatedAt t rest where
  text := h
  position := h.position_eq
  boundName name hname := by
    obtain ⟨u, hu, heq⟩ := h.boundName_eq hname
    obtain rfl : t = u := Option.some.inj hu
    exact heq
  new p new inits he := by
    subst he
    cases h with
    | creation _ _ _ _ _ _ hnew => exact ⟨hnew, rfl⟩
  initializers p new inits he init hinit := by
    subst he
    obtain ⟨own, hown, hlocated⟩ := h.exists_row_of_mem_initializers hinit
    have hstart := hlocated.position_eq
    cases own with
    | nil => exact absurd rfl hlocated.ne_nil
    | cons start more => exact ⟨start, more, hown, hlocated, hstart⟩

end Located

/-! ## Derivations -/

namespace Grammar

variable [Text.CharacterNames]

/-- A path is located in its tokens. -/
theorem located_path {path : Expr} {start : Position} {row : List Token} (h : Located path row)
    (hstart : startOf row = some start) (rest : List (Marked .colons × Ident)) :
    Located (pathExpr start path rest)
      (row ++ rest.flatMap fun more => [more.1.val, more.2.val]) := by
  induction rest generalizing path row with
  | nil => simpa [pathExpr] using h
  | cons more rest ih =>
      have hnext := Located.qualifiedName path row more.1.val more.2.val h more.1.property
        more.2.property
      rw [hstart] at hnext
      have hrest := ih hnext (by rw [startOf_append h.ne_nil, hstart])
      simpa [pathExpr] using hrest

/-- A member access is located in the tokens of its target, the dot and the name. -/
theorem located_access {e : Expr} {row : List Token} (h : Located e row) (dot : Marked .dot)
    (name : Ident) :
    Located (e.extend (Reading.access (Reading.nameOf name.val))) (row ++ [dot.val, name.val]) := by
  refine h.extend fun {e row} h => ?_
  rw [Reading.access, h.position_eq]
  exact .memberAccess e row dot.val name.val h dot.property name.property

/-- A conditional access is located in the tokens of its target, the mark and the name. -/
theorem located_conditional {e : Expr} {row : List Token} (h : Located e row)
    (mark : Marked .questionDot) (name : Ident) :
    Located (e.extend (Reading.conditional (Reading.nameOf name.val)))
      (row ++ [mark.val, name.val]) := by
  refine h.extend fun {e row} h => ?_
  rw [Reading.conditional, h.position_eq]
  exact .conditionalAccess e row mark.val _ [name.val] h mark.property
    (.memberBinding name.val name.property)

/-- A call is located in the tokens of its callee and its arguments. -/
theorem located_call {e : Expr} {row rows : List Token} (h : Located e row)
    (opening : Marked .openParen) {arguments : List Expr}
    (harguments : Separated Located arguments rows) (closing : Marked .closeParen) :
    Located (e.extend (Reading.call arguments))
      (row ++ opening.val :: (rows ++ [closing.val])) := by
  refine h.extend fun {e row} h => ?_
  rw [Reading.call, h.position_eq]
  exact .invocation e row opening.val arguments rows closing.val h opening.property harguments
    closing.property

mutual

/-- The expression of a sum is located in its tokens. -/
theorem Sum.located_build : ∀ s : Sum, Located s.build s.tokens
  | .chain operand => operand.located_build
  | .plus left op right => by
      have hleft := left.located_build
      have hstart := hleft.position_eq.symm.trans left.build_position
      have h := Located.binary left.build left.tokens op.val right.build right.tokens hleft
        op.property right.located_build
      rwa [hstart] at h

/-- What a chain builds is located in its tokens. -/
theorem Chain.located_build : ∀ operand : Chain, Located operand.build operand.tokens
  | .primary head => head.located_build
  | .member target op name => located_access target.located_build op name
  | .conditional target op name => located_conditional target.located_build op name
  | .call callee opening closing => located_call callee.located_build opening .nil closing
  | .callWith callee opening arguments closing =>
    located_call callee.located_build opening arguments.located_build closing

/-- What arguments build is located in their tokens, with commas between them. -/
theorem Arguments.located_build : ∀ arguments : Arguments,
    Separated Located arguments.build arguments.tokens
  | .last value => .last value.build value.tokens value.located_build
  | .more value comma rest =>
    .more value.build value.tokens comma.val rest.build rest.tokens value.located_build
      comma.property rest.located_build

/-- What a primary builds is located in its tokens. -/
theorem Primary.located_build : ∀ head : Primary, Located head.build head.tokens
  | .name token => .identifier token.val token.property
  | .qualifiedName first op second rest =>
    located_path (.identifier first.val first.property) rfl ((op, second) :: rest)
  | .integer ⟨⟨_, text, position⟩, rfl⟩ => .literal ⟨.integer, text, position⟩ _ rfl
  | .string ⟨⟨_, text, position⟩, rfl⟩ => .literal ⟨.string, text, position⟩ _ rfl
  | .trueWord ⟨⟨_, text, position⟩, rfl⟩ => .literal ⟨.keyword .true, text, position⟩ _ rfl
  | .falseWord ⟨⟨_, text, position⟩, rfl⟩ => .literal ⟨.keyword .false, text, position⟩ _ rfl
  | .nullWord ⟨⟨_, text, position⟩, rfl⟩ => .literal ⟨.keyword .null, text, position⟩ _ rfl
  | .paren opening inner closing =>
    .parenthesized opening.val inner.build inner.tokens closing.val opening.property
      inner.located_build closing.property
  | .emptyCreation new opening closing =>
    .creation new.val opening.val [] [] none closing.val new.property opening.property .nil
      (by simp) closing.property
  | .creation new opening initializers closing => by
      obtain ⟨rows, comma, hrows, hcomma, htokens⟩ := initializers.located_build
      rw [Primary.tokens, htokens]
      exact .creation new.val opening.val initializers.build rows comma closing.val new.property
        opening.property hrows hcomma closing.property

/-- What initializers build is located in their tokens, but for a comma at the end. -/
theorem Initializers.located_build : ∀ initializers : Initializers,
    ∃ (rows : List Token) (comma : Option Token),
      Separated (LocatedInitializer Located) initializers.build rows ∧
        (∀ t ∈ comma, t.kind = .mark .comma) ∧ initializers.tokens = rows ++ comma.toList
  | .last init =>
    ⟨_, none, .last init.build init.tokens init.located_build, by simp, (List.append_nil _).symm⟩
  | .trailing init comma =>
    ⟨_, some comma.val, .last init.build init.tokens init.located_build,
      by simpa using comma.property, rfl⟩
  | .more init comma rest => by
      obtain ⟨rows, last, hrows, hlast, htokens⟩ := rest.located_build
      exact ⟨_, last, .more init.build init.tokens comma.val rest.build rows init.located_build
        comma.property hrows, hlast, by simp [Initializers.tokens, htokens]⟩

/-- What a declarator builds is located in its tokens. -/
theorem Declarator.located_build : ∀ init : Declarator,
    LocatedInitializer Located init.build init.tokens
  | .named name op value =>
    .named name.val op.val value.build value.tokens name.property op.property value.located_build
  | .implicit value => by
      have hvalue := value.located_build
      have h : LocatedInitializer Located ⟨startOf value.tokens, none, value.build⟩ value.tokens :=
        .implicit value.build value.tokens hvalue
      rwa [← hvalue.position_eq, value.build_position] at h

end

end Grammar

/-! ## All positions -/

namespace Expr

/-- The positions in an expression itself: its own, those of its names, and those of its
initializers and their labels. -/
def ownPositions : Expr → List (Option Position)
  | identifier name => [name.position]
  | memberAccess p _ name | qualifiedName p _ name | memberBinding p name => [p, name.position]
  | conditionalAccess p _ _ | invocation p _ _ | literal p _ | binary p _ _ _ | parenthesized p _
  | error p _ => [p]
  | creation p new initializers =>
    p :: new :: initializers.flatMap fun init => init.position :: init.label.toList.map (·.position)

/-- A position stands in an expression or in something within it. -/
def HasPosition (e : Expr) (p : Option Position) : Prop :=
  ∃ d : Expr, d.Within e ∧ p ∈ d.ownPositions

end Expr

namespace Located

variable [Text.CharacterNames]

/-- The positions of an initializer and of its label are those of tokens. -/
theorem tokenAt_initializer {init : Initializer Expr} (h : LocatedInitializer Located init row)
    (hp : p ∈ init.position :: init.label.toList.map (·.position)) : TokenAt row p := by
  cases h with
  | named name =>
      obtain rfl : p = some name.position := by simpa [Reading.nameOf] using hp
      exact ⟨name, List.mem_cons_self, rfl⟩
  | implicit value _ hvalue =>
      obtain rfl : p = startOf row := by simpa using hp
      rw [← hvalue.position_eq]
      exact hvalue.tokenAt_position

/-- The positions of an expression itself are those of tokens of its text. -/
theorem tokenAt_ownPositions (h : Located e row) (hp : p ∈ e.ownPositions) : TokenAt row p := by
  have hstart := h.tokenAt_position
  cases e with
  | identifier | conditionalAccess | invocation | literal | binary | parenthesized | error =>
      obtain rfl := List.mem_singleton.mp hp
      exact hstart
  | memberAccess | qualifiedName | memberBinding =>
      rcases List.mem_cons.mp hp with rfl | hp
      · exact hstart
      · obtain rfl := List.mem_singleton.mp hp
        cases h
        exact ⟨_, by simp, rfl⟩
  | creation q new initializers =>
      rcases List.mem_cons.mp hp with rfl | hp
      · exact hstart
      rcases List.mem_cons.mp hp with rfl | hp
      · cases h with
        | creation => exact hstart
      · obtain ⟨init, hinit, hp⟩ := List.mem_flatMap.mp hp
        obtain ⟨own, hown, hlocated⟩ := h.exists_row_of_mem_initializers hinit
        exact (tokenAt_initializer hlocated hp).mono hown.subset

/-- Every position in an expression is that of a token in its text. -/
theorem tokenAt (h : Located e row) (hp : e.HasPosition p) : TokenAt row p := by
  obtain ⟨d, hd, hp⟩ := hp
  obtain ⟨own, hown, hd⟩ := h.exists_row hd
  exact (hd.tokenAt_ownPositions hp).mono hown.subset

end Located

/-- The positions in the declaration of a type. -/
def TypeDecl.positions (d : TypeDecl) : List Position :=
  d.position :: d.fields.flatMap fun field => [field.position, field.type.position]

/-- The positions in the declaration of a global. -/
def GlobalDecl.positions (d : GlobalDecl) : List Position :=
  [d.position, d.type.position]

/-- The positions in the declaration of a function. -/
def FunctionDecl.positions (d : FunctionDecl) : List Position :=
  d.position :: d.result.position :: d.params.map (·.type.position)

namespace MemberDecl

mutual

/-- Where a member and its local functions start. -/
def starts : MemberDecl → List Position
  | ⟨p, _, _, _, locals⟩ => p :: startsOf locals

/-- Where several members and their local functions start. -/
def startsOf : List MemberDecl → List Position
  | [] => []
  | m :: ms => starts m ++ startsOf ms

end

end MemberDecl

namespace Program

/-- The positions in the declarations of a program. -/
def declPositions (p : Program) : List Position :=
  p.types.flatMap TypeDecl.positions ++ p.globals.flatMap GlobalDecl.positions ++
    p.functions.flatMap FunctionDecl.positions ++ p.members.flatMap MemberDecl.starts

/-- The positions of declarations are those of types, globals and functions, and where members
start. -/
theorem mem_declPositions {p : Program} {r : Position} :
    r ∈ p.declPositions ↔ (∃ t ∈ p.types, r ∈ t.positions) ∨ (∃ g ∈ p.globals, r ∈ g.positions) ∨
      (∃ f ∈ p.functions, r ∈ f.positions) ∨ ∃ m ∈ p.members, r ∈ m.starts := by
  simp [declPositions]

/-- A position stands in a declaration of a program or in an expression of its members. -/
def HasPosition (p : Program) (q : Option Position) : Prop :=
  (∃ r ∈ p.declPositions, q = some r) ∨ ∃ m ∈ p.members, ∃ e ∈ m.allExprs, e.HasPosition q

end Program

namespace Grammar

/-- The name of a declaration stands at a token. -/
theorem TypedName.tokenAt_name (n : TypedName) : TokenAt n.tokens (some n.name.val.position) :=
  ⟨_, List.mem_cons_self, rfl⟩

/-- The type of a declaration stands at a token. -/
theorem TypedName.tokenAt_type (n : TypedName) : TokenAt n.tokens (some n.type.build.position) :=
  ⟨n.type.name.val, by simp [tokens, TypeRef.tokens], rfl⟩

/-- The words of a declared type start at a token. -/
theorem TypeWords.tokenAt_start (words : TypeWords) : TokenAt words.tokens (some words.start) := by
  cases words <;> exact ⟨_, List.mem_cons_self, rfl⟩

/-- The words of a member start at a token. -/
theorem BodyWords.tokenAt_start (words : BodyWords) : TokenAt words.tokens (some words.start) := by
  cases words <;> exact ⟨_, List.mem_cons_self, rfl⟩

variable {r : Position}

/-- The positions of a declared type are those of its tokens. -/
theorem TypeItem.tokenAt (item : TypeItem) (h : r ∈ item.build.positions) :
    TokenAt item.tokens (some r) := by
  rcases List.mem_cons.mp h with rfl | h
  · exact item.words.tokenAt_start.mono (List.subset_append_left _ _)
  · obtain ⟨decl, hdecl, h⟩ := List.mem_flatMap.mp h
    obtain ⟨field, hfield, rfl⟩ := List.mem_map.mp hdecl
    have htokens : field.typed.tokens ⊆ item.tokens := by
      intro t ht
      simp only [tokens, List.mem_append, List.mem_cons, List.mem_flatMap, Field.tokens]
      exact .inr (.inr (.inr (.inl ⟨field, hfield, .inr (.inl ht)⟩)))
    rcases List.mem_cons.mp h with rfl | h
    · exact field.typed.tokenAt_name.mono htokens
    · obtain rfl := List.mem_singleton.mp h
      exact field.typed.tokenAt_type.mono htokens

/-- The positions of a global are those of its tokens. -/
theorem GlobalItem.tokenAt (item : GlobalItem) (h : r ∈ item.build.positions) :
    TokenAt item.tokens (some r) := by
  have htokens : item.typed.tokens ⊆ item.tokens := by
    intro t ht
    simp [tokens, ht]
  rcases List.mem_cons.mp h with rfl | h
  · exact item.typed.tokenAt_name.mono htokens
  · obtain rfl := List.mem_singleton.mp h
    exact item.typed.tokenAt_type.mono htokens

/-- The types of parameters stand at tokens. -/
theorem Params.tokenAt (params : Params) {param : ParamDecl} (h : param ∈ params.build) :
    TokenAt params.tokens (some param.type.position) := by
  rcases List.mem_append.mp h with h | h
  · obtain ⟨item, hitem, rfl⟩ := List.mem_map.mp h
    refine item.1.tokenAt_type.mono fun t ht => List.mem_append_left _ ?_
    exact List.mem_flatMap.mpr ⟨item, hitem, List.mem_append_left _ ht⟩
  · obtain rfl := List.mem_singleton.mp h
    exact params.last.tokenAt_type.mono (List.subset_append_right _ _)

/-- The positions of a function are those of its tokens. -/
theorem FunctionItem.tokenAt (item : FunctionItem) (h : r ∈ item.build.positions) :
    TokenAt item.tokens (some r) := by
  rcases List.mem_cons.mp h with rfl | h
  · exact ⟨item.name.val, by simp [tokens], rfl⟩
  rcases List.mem_cons.mp h with rfl | h
  · exact ⟨item.result.name.val, by simp [tokens, TypeRef.tokens], rfl⟩
  · obtain ⟨param, hparam, rfl⟩ := List.mem_map.mp h
    obtain ⟨params, hparams, hparam⟩ := List.mem_flatMap.mp hparam
    refine (params.tokenAt hparam).mono fun t ht => ?_
    simp only [tokens, List.mem_cons, List.mem_append, List.mem_flatMap]
    exact .inr (.inr (.inr (.inl ⟨params, hparams, ht⟩)))

/-- Local functions start at tokens of the body. -/
theorem Body.tokenAt [Text.CharacterNames] (b : Body) (h : r ∈ MemberDecl.startsOf b.locals) :
    TokenAt b.tokens (some r) := by
  induction b with
  | nil => simp [locals, MemberDecl.startsOf] at h
  | statement value semicolon rest ih =>
      refine (ih h).mono fun t ht => ?_
      simp [tokens, ht]
  | localFunction word name opening inner closing rest ihInner ihRest =>
      simp only [locals, MemberDecl.startsOf, MemberDecl.starts, List.cons_append, List.mem_cons,
        List.mem_append] at h
      rcases h with rfl | h | h
      · exact ⟨word.val, List.mem_cons_self, rfl⟩
      · refine (ihInner h).mono fun t ht => ?_
        simp [tokens, ht]
      · refine (ihRest h).mono fun t ht => ?_
        simp [tokens, ht]

/-- A member and its local functions start at tokens. -/
theorem MemberItem.tokenAt [Text.CharacterNames] (item : MemberItem) (h : r ∈ item.build.starts) :
    TokenAt item.tokens (some r) := by
  cases item with
  | value word name op init semicolon =>
      obtain rfl : r = word.token.position := by
        simpa [build, MemberDecl.starts, MemberDecl.startsOf] using h
      exact ⟨word.token, List.mem_cons_self, rfl⟩
  | body words opening inner closing =>
      rcases List.mem_cons.mp h with rfl | h
      · exact words.tokenAt_start.mono (List.subset_append_left _ _)
      · refine (inner.tokenAt h).mono fun t ht => ?_
        simp [tokens, ht]

/-- The positions in the declarations that a derivation builds are those of its tokens. -/
theorem Program.tokenAt [Text.CharacterNames] (d : Program) (h : r ∈ d.build.declPositions) :
    TokenAt d.tokens (some r) := by
  simp only [Syntax.Program.declPositions, build, List.mem_append, List.mem_flatMap,
    List.mem_filterMap] at h
  rcases h with ((h | h) | h) | h <;> obtain ⟨decl, ⟨item, hitem, hdecl⟩, h⟩ := h <;>
    cases item <;> cases hdecl
  · exact (TypeItem.tokenAt _ h).mono (tokens_item hitem).subset
  · exact (GlobalItem.tokenAt _ h).mono (tokens_item hitem).subset
  · exact (FunctionItem.tokenAt _ h).mono (tokens_item hitem).subset
  · exact (MemberItem.tokenAt _ h).mono (tokens_item hitem).subset

end Grammar

namespace Program

variable [Text.CharacterNames] {source : List Char} {p : Program} {q : Option Position}

/-- The expressions in a program from source text are located in rows of its tokens. -/
theorem exists_row (hp : Program.parse source = .ok p) {m : MemberDecl} (hm : m ∈ p.members)
    {e : Expr} (he : e ∈ m.allExprs) :
    ∃ row, row <:+: (Tokens.ofText .program source).list ∧ Located e row := by
  obtain ⟨d, hd, rfl⟩ := exists_derivation hp
  obtain ⟨s, rfl, hs⟩ := d.exists_sum hm he
  exact ⟨s.tokens, hd ▸ hs, s.located_build⟩

/-- Whatever stands in the expressions of a program from source text is located at the first token
of its own text. -/
theorem exists_locatedAt (hp : Program.parse source = .ok p) {m : MemberDecl} (hm : m ∈ p.members)
    {e : Expr} (he : e ∈ m.allExprs) {d : Expr} (hd : d.Within e) :
    ∃ t rest, t :: rest <:+: (Tokens.ofText .program source).list ∧ d.LocatedAt t rest := by
  obtain ⟨row, hrow, hlocated⟩ := exists_row hp hm he
  obtain ⟨own, hown, hlocated⟩ := hlocated.exists_row hd
  cases own with
  | nil => exact absurd rfl hlocated.ne_nil
  | cons t rest => exact ⟨t, rest, hown.trans hrow, hlocated.locatedAt⟩

/-- Every position in a program from source text is that of a token. -/
theorem tokenAt (hp : Program.parse source = .ok p) (hq : p.HasPosition q) :
    TokenAt (Tokens.ofText .program source).list q := by
  rcases hq with ⟨r, hr, rfl⟩ | ⟨m, hm, e, he, hq⟩
  · obtain ⟨d, hd, rfl⟩ := exists_derivation hp
    exact hd ▸ d.tokenAt hr
  · obtain ⟨row, hrow, hlocated⟩ := exists_row hp hm he
    exact (hlocated.tokenAt hq).mono hrow.subset

end Program

end AnonymousObjects.Syntax
