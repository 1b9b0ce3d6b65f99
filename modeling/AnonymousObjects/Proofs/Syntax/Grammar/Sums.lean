import AnonymousObjects.Proofs.Syntax.Grammar.OpenSums

/-!
# Expressions and their derivations

A row of tokens is read into an expression if it is what a derivation derives, and the expression is
what the derivation builds: `Sum.exists_of_feed` and `Sum.feed_built`. The first rests on
`OpenSum.tokens_shift`, as every token that is read is kept, the second on `Sum.feed_tokens`, an
induction on derivations.
-/

namespace AnonymousObjects.Syntax.Grammar

/-! ## Tokens are kept -/

/-- The tokens of items are those of the first ones and then those of the others. -/
@[simp] theorem itemTokens_append {α : Type} (tokens : α → List Token)
    (before more : List (α × Marked .comma)) :
    itemTokens tokens (before ++ more) = itemTokens tokens before ++ itemTokens tokens more := by
  simp [itemTokens]

/-- The tokens of an item and its comma come first. -/
@[simp] theorem itemTokens_cons {α : Type} (tokens : α → List Token) (item : α × Marked .comma)
    (rest : List (α × Marked .comma)) :
    itemTokens tokens (item :: rest) = tokens item.1 ++ item.2.val :: itemTokens tokens rest := by
  simp [itemTokens]

/-- No items, no tokens. -/
@[simp] theorem itemTokens_nil {α : Type} (tokens : α → List Token) : itemTokens tokens [] = [] :=
  rfl

/-- The tokens of a sum in front of an operand. -/
def leftTokens : Option Left → List Token
  | none => []
  | some left => left.1.tokens ++ [left.2.val]

/-- The tokens of the label of a declarator. -/
def labelTokens : Option (Ident × Marked .equal) → List Token
  | none => []
  | some label => [label.1.val, label.2.val]

/-- The tokens of a bracket and of what is complete in it. -/
def Bracket.tokens : Bracket → List Token
  | .paren left opening => leftTokens left ++ [opening.val]
  | .arguments left callee opening before =>
    leftTokens left ++ callee.tokens ++ opening.val :: itemTokens Sum.tokens before
  | .initializers left new opening before label =>
    leftTokens left ++ new.val :: opening.val :: itemTokens Declarator.tokens before ++
      labelTokens label

/-- The tokens of open brackets, of which the innermost is the first. -/
def bracketTokens : List Bracket → List Token
  | [] => []
  | bracket :: outer => bracketTokens outer ++ bracket.tokens

/-- The tokens that belong to a place. -/
def Place.tokens : Place → List Token
  | .operand => []
  | .firstArgument callee opening => callee.tokens ++ [opening.val]
  | .initializer word opening before =>
    word.val :: opening.val :: itemTokens Declarator.tokens before
  | .new word => [word.val]
  | .dot target op => target.tokens ++ [op.val]
  | .questionDot target op => target.tokens ++ [op.val]
  | .colons names op => names.tokens ++ [op.val]
  | .complete chain => chain.tokens

/-- The tokens read so far. -/
def OpenSum.tokens (q : OpenSum) : List Token :=
  bracketTokens q.brackets ++ leftTokens q.left ++ q.place.tokens

/-- The tokens of a sum are those of its left side and then those of its last operand. -/
@[simp] theorem Sum.tokens_join (left : Option Left) (operand : Chain) :
    (Sum.join left operand).tokens = leftTokens left ++ operand.tokens := by
  cases left <;> simp [join, tokens, leftTokens]

/-- The tokens of a label come before those of the value. -/
@[simp] theorem Declarator.tokens_labelled (label : Option (Ident × Marked .equal)) (value : Sum) :
    (Declarator.labelled label value).tokens = labelTokens label ++ value.tokens := by
  cases label <;> simp [labelled, tokens, labelTokens]

/-- The tokens of arguments before come before those of the last. -/
@[simp] theorem Arguments.tokens_after (last : Arguments) (before : List (Sum × Marked .comma)) :
    (last.after before).tokens = itemTokens Sum.tokens before ++ last.tokens := by
  induction before with
  | nil => rfl
  | cons first before ih => simp [after, tokens, ih]

/-- The tokens of initializers before come before those of the last. -/
@[simp] theorem Initializers.tokens_after (last : Initializers)
    (before : List (Declarator × Marked .comma)) :
    (last.after before).tokens = itemTokens Declarator.tokens before ++ last.tokens := by
  induction before with
  | nil => rfl
  | cons first before ih => simp [after, tokens, ih]

/-- Initializers with a comma at the end have the tokens of items. -/
@[simp] theorem Initializers.tokens_trailed (init : Declarator) (comma : Marked .comma)
    (before : List (Declarator × Marked .comma)) :
    (Initializers.trailed init comma before).tokens =
      itemTokens Declarator.tokens ((init, comma) :: before) := by
  induction before generalizing init comma with
  | nil => simp [trailed, tokens]
  | cons first before ih => simp [trailed, tokens, ih]

/-- A creation with a comma at the end has the tokens of its initializers between the braces. -/
@[simp] theorem Primary.tokens_trailed (new : Word .new) (opening : Marked .openBrace)
    (closing : Marked .closeBrace) (before : List (Declarator × Marked .comma)) :
    (Primary.trailed new opening closing before).tokens =
      new.val :: opening.val :: (itemTokens Declarator.tokens before ++ [closing.val]) := by
  cases before with
  | nil => rfl
  | cons first before => simp [trailed, tokens]

namespace OpenSum

variable {q q' : OpenSum} {t : Token}

/-- A token that opens an operand is the next token. -/
theorem openOperand_tokens (hplace : q.place = .operand) (h : q.openOperand t = some q') :
    q'.tokens = q.tokens ++ [t] := by
  obtain ⟨brackets, left, place⟩ := q
  obtain rfl : place = .operand := hplace
  unfold openOperand at h
  split at h
  case h_9 => cases h
  all_goals
    cases h
    simp [reach, tokens, Place.tokens, Chain.tokens, Primary.tokens, bracketTokens,
      Bracket.tokens, leftTokens]

/-- Going inside of brackets takes no token. -/
theorem inside_tokens (q : OpenSum) : q.inside.tokens = q.tokens := by
  obtain ⟨brackets, left, place⟩ := q
  cases place <;>
    simp [inside, tokens, bracketTokens, Bracket.tokens, Place.tokens, leftTokens, labelTokens]

/-- A mark after an operand is the next token. -/
theorem afterOperand_tokens {operand : Chain} {m : Mark} {t : Marked m}
    (h : q.afterOperand operand m t = some q') :
    q'.tokens = (q.reach operand).tokens ++ [t.val] := by
  obtain ⟨brackets, left, place⟩ := q
  unfold afterOperand at h
  split at h
  case h_4 =>
    obtain ⟨names, hnames, rfl⟩ := Option.map_eq_some_iff.mp h
    simp [reach, tokens, Place.tokens, operand.eq_of_names? hnames, Chain.tokens,
      Primary.tokens_ofNames]
  case h_6 =>
    split at h
    · next name hleft =>
      obtain rfl : left = none := hleft
      cases h
      simp_all [reach, tokens, Place.tokens, Chain.tokens, Primary.tokens, bracketTokens,
        Bracket.tokens, leftTokens, labelTokens]
    · cases h
  case h_12 => cases h
  all_goals
    cases h
    simp_all [reach, tokens, Place.tokens, Chain.tokens, Primary.tokens, bracketTokens,
      Bracket.tokens, leftTokens, labelTokens, Arguments.tokens, Initializers.tokens]

/-- A token that is shifted is kept. -/
theorem tokens_shift (h : q.shift t = some q') : q'.tokens = q.tokens ++ [t] := by
  obtain ⟨brackets, left, place⟩ := q
  cases place with
  | operand => exact openOperand_tokens rfl h
  | firstArgument callee opening =>
      simp only [shift] at h
      split at h
      · cases h
        simp [reach, tokens, Place.tokens, Chain.tokens]
      · rw [openOperand_tokens rfl h, inside_tokens]
  | initializer word opening before =>
      simp only [shift] at h
      split at h
      · cases h
        simp [reach, tokens, Place.tokens, Chain.tokens]
      · rw [openOperand_tokens rfl h, inside_tokens]
  | new =>
      simp only [shift] at h
      split at h
      · cases h
        simp [tokens, Place.tokens]
      · cases h
  | dot | questionDot =>
      simp only [shift] at h
      split at h
      · cases h
        simp [reach, tokens, Place.tokens, Chain.tokens]
      · cases h
  | colons names op =>
      simp only [shift] at h
      split at h
      · cases h
        simp [reach, tokens, Place.tokens, Chain.tokens, Primary.tokens_ofNames, Names.tokens]
      · cases h
  | complete operand =>
      simp only [shift] at h
      split at h
      · exact afterOperand_tokens h
      · cases h

end OpenSum

/-! ## Derivations are read -/

/-- The sum in front of the last operand of a sum. -/
def Sum.left? : Sum → Option Left
  | .chain _ => none
  | .plus left op _ => some (left, op)

/-- The last operand of a sum. -/
def Sum.last : Sum → Chain
  | .chain operand => operand
  | .plus _ _ right => right

/-- A sum is made of its left side and its last operand. -/
@[simp] theorem Sum.join_left?_last (s : Sum) : Sum.join s.left? s.last = s := by
  cases s <;> rfl

/-- The label of a declarator. -/
def Declarator.label? : Declarator → Option (Ident × Marked .equal)
  | .named name op _ => some (name, op)
  | .implicit _ => none

/-- The expression of a declarator. -/
def Declarator.value : Declarator → Sum
  | .named _ _ value => value
  | .implicit value => value

/-- An initializer is made of its label and its value. -/
@[simp] theorem Declarator.labelled_label?_value (init : Declarator) :
    Declarator.labelled init.label? init.value = init := by
  cases init <;> rfl

/-- A row of tokens that starts with no closing bracket. -/
def Opens (ts : List Token) : Prop :=
  ∃ t rest, ts = t :: rest ∧ t.kind ≠ .mark .closeParen ∧ t.kind ≠ .mark .closeBrace

/-- A row that starts with no closing bracket starts with none when more follows. -/
theorem Opens.append {ts : List Token} (h : Opens ts) (us : List Token) : Opens (ts ++ us) := by
  obtain ⟨t, rest, rfl, ht⟩ := h
  exact ⟨t, rest ++ us, rfl, ht⟩

/-- A token that is no closing bracket starts no row with one. -/
theorem opens_of_kind {t : Token} {k : TokenKind} (ht : t.kind = k)
    (hparen : k ≠ .mark .closeParen) (hbrace : k ≠ .mark .closeBrace) (rest : List Token) :
    Opens (t :: rest) :=
  ⟨t, rest, rfl, ht ▸ hparen, ht ▸ hbrace⟩

/-- A primary starts with no closing bracket. -/
theorem Primary.opens (head : Primary) : Opens head.tokens := by
  cases head with
  | name token | integer token | string token | trueWord token | falseWord token
  | nullWord token => exact opens_of_kind token.property (by decide) (by decide) _
  | qualifiedName first op second rest =>
      exact opens_of_kind first.property (by decide) (by decide) _
  | paren opening inner closing => exact opens_of_kind opening.property (by decide) (by decide) _
  | emptyCreation new opening closing =>
      exact opens_of_kind new.property (by decide) (by decide) _
  | creation new opening initializers closing =>
      exact opens_of_kind new.property (by decide) (by decide) _

/-- A chain starts with no closing bracket. -/
theorem Chain.opens (operand : Chain) : Opens operand.tokens := by
  cases operand with
  | primary head => exact head.opens
  | member target _ _ => exact target.opens.append _
  | conditional target _ _ => exact target.opens.append _
  | call callee _ _ => exact callee.opens.append _
  | callWith callee _ _ _ => exact callee.opens.append _

/-- A sum starts with no closing bracket. -/
theorem Sum.opens (s : Sum) : Opens s.tokens := by
  cases s with
  | chain operand => exact operand.opens
  | plus left _ _ => exact left.opens.append _

/-- Arguments start with no closing bracket. -/
theorem Arguments.opens (arguments : Arguments) : Opens arguments.tokens := by
  cases arguments with
  | last value => exact value.opens
  | more value comma rest => exact value.opens.append _

/-- An argument at the end of those before is the first of the rest. -/
theorem Arguments.after_append (last : Arguments) (before : List (Sum × Marked .comma))
    (value : Sum) (comma : Marked .comma) :
    last.after (before ++ [(value, comma)]) = (Arguments.more value comma last).after before := by
  induction before with
  | nil => rfl
  | cons first before ih => simp [after, ih]

/-- An initializer at the end of those before is the first of the rest. -/
theorem Initializers.after_append (last : Initializers) (before : List (Declarator × Marked .comma))
    (init : Declarator) (comma : Marked .comma) :
    last.after (before ++ [(init, comma)]) = (Initializers.more init comma last).after before := by
  induction before with
  | nil => rfl
  | cons first before ih => simp [after, ih]

/-- An initializer and its comma at the end are the last. -/
theorem Initializers.trailed_append (first : Declarator) (firstComma : Marked .comma)
    (before : List (Declarator × Marked .comma)) (init : Declarator) (comma : Marked .comma) :
    Initializers.trailed first firstComma (before ++ [(init, comma)]) =
      (Initializers.trailing init comma).after ((first, firstComma) :: before) := by
  induction before generalizing first firstComma with
  | nil => rfl
  | cons second before ih => simp [trailed, after, ih]

/-- A creation with a comma after its last initializer. -/
theorem Primary.trailed_append (new : Word .new) (opening : Marked .openBrace)
    (closing : Marked .closeBrace) (before : List (Declarator × Marked .comma)) (init : Declarator)
    (comma : Marked .comma) :
    Primary.trailed new opening closing (before ++ [(init, comma)]) =
      .creation new opening ((Initializers.trailing init comma).after before) closing := by
  cases before with
  | nil => rfl
  | cons first before => simp [trailed, Initializers.trailed_append]

namespace OpenSum

/-- An operand that starts where a bracket could be closed is read inside the bracket. -/
theorem feed_inside {q : OpenSum} (hplace : q.inside.place = .operand) {ts : List Token}
    (hts : Opens ts) : feed shift q ts = feed shift q.inside ts := by
  obtain ⟨t, rest, rfl, hparen, hbrace⟩ := hts
  suffices q.shift t = q.inside.shift t by simp only [feed, this]
  obtain ⟨brackets, left, place⟩ := q
  cases place with
  | operand => rfl
  | firstArgument | initializer => simp only [shift, inside]
  | new | dot | questionDot | colons | complete => cases hplace

/-- Reading a mark after a complete operand. -/
theorem feed_mark {brackets : List Bracket} {left : Option Left} {operand : Chain} {m : Mark}
    {t : Marked m} {ts : List Token} (q : OpenSum)
    (h : afterOperand ⟨brackets, left, .complete operand⟩ operand m t = some q) :
    feed shift ⟨brackets, left, .complete operand⟩ (t.val :: ts) = feed shift q ts := by
  apply feed_cons
  match t, h with
  | ⟨⟨_, _, _⟩, rfl⟩, h => exact h

/-- Reading the name after `::`. -/
theorem shift_colons (brackets : List Bracket) (left : Option Left) (names : Names)
    (op : Marked .colons) (name : Ident) :
    shift ⟨brackets, left, .colons names op⟩ name.val =
      some (reach ⟨brackets, left, .operand⟩
        (.primary (.ofNames (names.1, names.2 ++ [(op, name)])))) := by
  match name with
  | ⟨⟨_, _, _⟩, rfl⟩ => rfl

/-- Reading the rest of a path. -/
theorem feed_names (brackets : List Bracket) (left : Option Left) (names : Names)
    (rest : List (Marked .colons × Ident)) :
    feed shift ⟨brackets, left, .complete (.primary (.ofNames names))⟩
        (rest.flatMap fun more => [more.1.val, more.2.val]) =
      .ok ⟨brackets, left, .complete (.primary (.ofNames (names.1, names.2 ++ rest)))⟩ := by
  induction rest generalizing names with
  | nil => simp [feed]
  | cons more rest ih =>
    have hop : afterOperand ⟨brackets, left, .complete (.primary (.ofNames names))⟩
        (.primary (.ofNames names)) .colons more.1 =
          some ⟨brackets, left, .colons names more.1⟩ := by
      simp [afterOperand, Chain.names?_ofNames]
    rw [List.flatMap_cons, List.cons_append, feed_mark _ hop, List.cons_append,
      feed_cons _ (shift_colons ..), List.nil_append]
    refine (ih _).trans ?_
    simp

end OpenSum

open OpenSum

mutual

/-- The tokens of a sum are read into the sum. -/
theorem Sum.feed_tokens : ∀ (s : Sum) (brackets : List Bracket),
    feed shift ⟨brackets, none, .operand⟩ s.tokens = .ok ⟨brackets, s.left?, .complete s.last⟩
  | .chain operand, brackets => operand.feed_tokens brackets none
  | .plus left op right, brackets => by
      rw [Sum.tokens, feed_append_of_ok (left.feed_tokens brackets), feed_mark _ rfl,
        Sum.join_left?_last]
      exact right.feed_tokens brackets _

/-- The tokens of an operand are read into the operand. -/
theorem Chain.feed_tokens : ∀ (operand : Chain) (brackets : List Bracket) (left : Option Left),
    feed shift ⟨brackets, left, .operand⟩ operand.tokens = .ok ⟨brackets, left, .complete operand⟩
  | .primary head, brackets, left => head.feed_tokens brackets left
  | .member target op ⟨⟨_, _, _⟩, rfl⟩, brackets, left => by
      rw [Chain.tokens, feed_append_of_ok (target.feed_tokens brackets left), feed_mark _ rfl]
      rfl
  | .conditional target op ⟨⟨_, _, _⟩, rfl⟩, brackets, left => by
      rw [Chain.tokens, feed_append_of_ok (target.feed_tokens brackets left), feed_mark _ rfl]
      rfl
  | .call callee opening ⟨⟨_, _, _⟩, rfl⟩, brackets, left => by
      rw [Chain.tokens, feed_append_of_ok (callee.feed_tokens brackets left), feed_mark _ rfl]
      rfl
  | .callWith callee opening arguments closing, brackets, left => by
      rw [Chain.tokens, feed_append_of_ok (callee.feed_tokens brackets left), feed_mark _ rfl,
        feed_inside rfl (arguments.opens.append _)]
      exact arguments.feed_tokens brackets left callee opening [] closing

/-- The tokens of arguments are read into a call. -/
theorem Arguments.feed_tokens : ∀ (arguments : Arguments) (brackets : List Bracket)
    (left : Option Left) (callee : Chain) (opening : Marked .openParen)
    (before : List (Sum × Marked .comma)) (closing : Marked .closeParen),
    feed shift ⟨.arguments left callee opening before :: brackets, none, .operand⟩
        (arguments.tokens ++ [closing.val]) =
      .ok ⟨brackets, left, .complete (.callWith callee opening (arguments.after before) closing)⟩
  | .last value, brackets, left, callee, opening, before, closing => by
      rw [Arguments.tokens, feed_append_of_ok (value.feed_tokens _), feed_mark _ rfl,
        Sum.join_left?_last]
      rfl
  | .more value comma rest, brackets, left, callee, opening, before, closing => by
      rw [Arguments.tokens, List.append_assoc, feed_append_of_ok (value.feed_tokens _),
        List.cons_append, feed_mark _ rfl, Sum.join_left?_last, rest.feed_tokens brackets,
        Arguments.after_append]

/-- The tokens of a primary expression are read into it. -/
theorem Primary.feed_tokens : ∀ (head : Primary) (brackets : List Bracket) (left : Option Left),
    feed shift ⟨brackets, left, .operand⟩ head.tokens =
      .ok ⟨brackets, left, .complete (.primary head)⟩
  | .name ⟨⟨_, _, _⟩, rfl⟩, brackets, left => rfl
  | .integer ⟨⟨_, _, _⟩, rfl⟩, brackets, left => rfl
  | .string ⟨⟨_, _, _⟩, rfl⟩, brackets, left => rfl
  | .trueWord ⟨⟨_, _, _⟩, rfl⟩, brackets, left => rfl
  | .falseWord ⟨⟨_, _, _⟩, rfl⟩, brackets, left => rfl
  | .nullWord ⟨⟨_, _, _⟩, rfl⟩, brackets, left => rfl
  | .qualifiedName ⟨⟨_, text, position⟩, rfl⟩ op second rest, brackets, left =>
    feed_names brackets left (⟨⟨.name, text, position⟩, rfl⟩, []) ((op, second) :: rest)
  | .paren ⟨⟨_, text, position⟩, rfl⟩ inner closing, brackets, left => by
      let bracket := Bracket.paren left ⟨⟨_, text, position⟩, rfl⟩
      rw [Primary.tokens, feed_cons ⟨bracket :: brackets, none, .operand⟩ rfl,
        feed_append_of_ok (inner.feed_tokens _), feed_mark _ rfl, Sum.join_left?_last]
      rfl
  | .emptyCreation ⟨⟨_, _, _⟩, rfl⟩ ⟨⟨_, _, _⟩, rfl⟩ ⟨⟨_, _, _⟩, rfl⟩, brackets, left => rfl
  | .creation ⟨⟨_, _, _⟩, rfl⟩ ⟨⟨_, _, _⟩, rfl⟩ initializers closing, brackets, left =>
    initializers.feed_tokens brackets left ⟨⟨_, _, _⟩, rfl⟩ ⟨⟨_, _, _⟩, rfl⟩ [] closing

/-- The tokens of initializers are read into a creation. -/
theorem Initializers.feed_tokens : ∀ (initializers : Initializers) (brackets : List Bracket)
    (left : Option Left) (new : Word .new) (opening : Marked .openBrace)
    (before : List (Declarator × Marked .comma)) (closing : Marked .closeBrace),
    feed shift ⟨brackets, left, .initializer new opening before⟩
        (initializers.tokens ++ [closing.val]) =
      .ok ⟨brackets, left,
        .complete (.primary (.creation new opening (initializers.after before) closing))⟩
  | .last init, brackets, left, new, opening, before, closing => by
      rw [Initializers.tokens, feed_append_of_ok (init.feed_tokens ..), feed_mark _ rfl,
        Sum.join_left?_last, Declarator.labelled_label?_value]
      rfl
  | .trailing init comma, brackets, left, new, opening, before, ⟨⟨_, _, _⟩, rfl⟩ => by
      rw [Initializers.tokens, List.append_assoc, feed_append_of_ok (init.feed_tokens ..),
        List.cons_append, feed_mark _ rfl, Sum.join_left?_last, Declarator.labelled_label?_value,
        ← Primary.trailed_append]
      rfl
  | .more init comma rest, brackets, left, new, opening, before, closing => by
      rw [Initializers.tokens, List.append_assoc, feed_append_of_ok (init.feed_tokens ..),
        List.cons_append, feed_mark _ rfl, Sum.join_left?_last, Declarator.labelled_label?_value,
        rest.feed_tokens, Initializers.after_append]

/-- The tokens of an initializer are read as far as the end of its expression. -/
theorem Declarator.feed_tokens : ∀ (init : Declarator) (brackets : List Bracket)
    (left : Option Left) (new : Word .new) (opening : Marked .openBrace)
    (before : List (Declarator × Marked .comma)),
    feed shift ⟨brackets, left, .initializer new opening before⟩ init.tokens =
      .ok ⟨.initializers left new opening before init.label? :: brackets, init.value.left?,
        .complete init.value.last⟩
  | .named ⟨⟨_, _, _⟩, rfl⟩ ⟨⟨_, _, _⟩, rfl⟩ value, brackets, left, new, opening, before =>
    value.feed_tokens (.initializers left new opening before _ :: brackets)
  | .implicit value, brackets, left, new, opening, before => by
      rw [Declarator.tokens, feed_inside rfl value.opens]
      exact value.feed_tokens (.initializers left new opening before none :: brackets)

end

/-- The tokens of a sum that is complete are those that were read. -/
theorem OpenSum.tokens_value? {q : OpenSum} {s : Sum} (h : q.value? = some s) :
    s.tokens = q.tokens := by
  obtain ⟨brackets, left, place⟩ := q
  unfold value? at h
  split at h
  · next operand hbrackets hplace =>
    obtain rfl : brackets = [] := hbrackets
    obtain rfl : place = .complete operand := hplace
    cases h
    simp [tokens, bracketTokens, Place.tokens]
  · cases h

/-- The tokens of a sum are read into the sum. -/
theorem Sum.feed_start (s : Sum) :
    ∃ q, feed shift .start s.tokens = .ok q ∧ q.value? = some s :=
  ⟨_, s.feed_tokens [], by simp [value?]⟩

/-- The tokens of a sum are read into the expression that it builds. -/
theorem Sum.feed_built [Text.CharacterNames] (s : Sum) :
    ∃ r, feed Reading.shift .start s.tokens = .ok r ∧ r.value? = some s.build := by
  obtain ⟨q, hfeed, hvalue⟩ := s.feed_start
  have hbuilt := feed_map built_shift .start s.tokens
  rw [hfeed] at hbuilt
  exact ⟨q.built, hbuilt, by rw [q.built_value?, hvalue]; rfl⟩

/-- Tokens that are read into an expression are those of a derivation that builds it. -/
theorem Sum.exists_of_feed [Text.CharacterNames] {ts : List Token} {r : Reading} {e : Expr}
    (hfeed : feed Reading.shift .start ts = .ok r) (hvalue : r.value? = some e) :
    ∃ s : Sum, s.tokens = ts ∧ s.build = e := by
  obtain ⟨q, hq, rfl⟩ := feed_of_map built_shift .start hfeed
  rw [q.built_value?] at hvalue
  obtain ⟨s, hs, rfl⟩ := Option.map_eq_some_iff.mp hvalue
  exact ⟨s, (q.tokens_value? hs).trans (feed_keeps_tokens tokens_shift hq), rfl⟩

end AnonymousObjects.Syntax.Grammar
