import AnonymousObjects.Proofs.Syntax.Documents
import AnonymousObjects.Text.NameTable

/-!
# Rows of tokens that can go on

A row of tokens is `Viable` if more tokens can make it the row of a program. Whatever has been read
can be completed: an open expression by the operand that is missing and the closing of its brackets,
an open body by its brace and those of the bodies around it. So reading goes on as long as the row
is viable, and a text is refused at the first token that no program has at its place.
`Program.parse_refused_iff` says this of both ways to refuse a text, and that nothing after the
token matters.
-/

namespace AnonymousObjects.Syntax

/-- A token of each class, as it might be written. -/
def TokenKind.sample : TokenKind → String
  | .name => "x"
  | .integer => "0"
  | .string => "\"\""
  | .keyword k => k.text
  | .mark m => m.text

namespace Grammar

instance (k : TokenKind) : Inhabited (Terminal k) :=
  ⟨⟨⟨k, k.sample, .start⟩, rfl⟩⟩

instance : Inhabited TypeRef :=
  ⟨⟨default, []⟩⟩

/-! ## Open expressions -/

/-- Every place is in an operand or in front of one. -/
theorem Place.exists_operand (place : Place) :
    ∃ operand : Chain, place.tokens <+: operand.tokens := by
  cases place with
  | operand => exact ⟨.primary (.name default), List.nil_prefix⟩
  | firstArgument callee opening =>
      exact ⟨.call callee opening default, by simp [tokens, Chain.tokens]⟩
  | initializer new opening before =>
      exact ⟨.primary (.trailed new opening default before), by simp [tokens, Chain.tokens]⟩
  | new word =>
      exact ⟨.primary (.emptyCreation word default default), by
        simp [tokens, Chain.tokens, Primary.tokens]⟩
  | dot target op => exact ⟨.member target op default, by simp [tokens, Chain.tokens]⟩
  | questionDot target op =>
      exact ⟨.conditional target op default, by simp [tokens, Chain.tokens]⟩
  | colons names op =>
      exact ⟨.primary (.ofNames (names.1, names.2 ++ [(op, default)])), by
        simp [tokens, Chain.tokens, Primary.tokens_ofNames, Names.tokens]⟩
  | complete operand => exact ⟨operand, List.prefix_rfl⟩

/-- A bracket can be closed after a sum. -/
theorem Bracket.exists_operand (bracket : Bracket) (value : Sum) :
    ∃ left operand, bracket.tokens ++ value.tokens <+: leftTokens left ++ Chain.tokens operand := by
  cases bracket with
  | paren left opening =>
      exact ⟨left, .primary (.paren opening value default), by
        simp [tokens, Chain.tokens, Primary.tokens]⟩
  | arguments left callee opening before =>
      exact ⟨left, .callWith callee opening ((Arguments.last value).after before) default, by
        simp [tokens, Chain.tokens, Arguments.tokens]⟩
  | initializers left new opening before label =>
      let initializers := (Initializers.last (.labelled label value)).after before
      exact ⟨left, .primary (.creation new opening initializers default), by
        simp [tokens, Chain.tokens, Primary.tokens, initializers, Initializers.tokens]⟩

/-- Open brackets can be closed after an operand, one after the other. -/
theorem exists_sum_of_brackets (brackets : List Bracket) (left : Option Left) (operand : Chain) :
    ∃ s : Sum, bracketTokens brackets ++ (leftTokens left ++ operand.tokens) <+: s.tokens := by
  induction brackets generalizing left operand with
  | nil => exact ⟨.join left operand, by simp [bracketTokens]⟩
  | cons bracket outer ih =>
      obtain ⟨left', operand', hclosed⟩ := bracket.exists_operand (.join left operand)
      obtain ⟨s, hs⟩ := ih left' operand'
      refine ⟨s, List.IsPrefix.trans ?_ hs⟩
      simpa [bracketTokens] using hclosed

/-- An open expression can be completed. -/
theorem OpenSum.exists_sum (q : OpenSum) : ∃ s : Sum, q.tokens <+: s.tokens := by
  obtain ⟨operand, hoperand⟩ := q.place.exists_operand
  obtain ⟨s, hs⟩ := exists_sum_of_brackets q.brackets q.left operand
  refine ⟨s, List.IsPrefix.trans ?_ hs⟩
  simpa [tokens] using hoperand

/-! ## Open declarations -/

/-- A row of tokens with which a declaration starts. -/
def StartsItem (ts : List Token) : Prop :=
  ∃ item : Item, ts <+: item.tokens

/-- What starts a declaration still does so when it is cut short. -/
theorem StartsItem.shorten {ts us : List Token} (h : StartsItem us) (hstarts : ts <+: us) :
    StartsItem ts := by
  obtain ⟨item, hitem⟩ := h
  exact ⟨item, hstarts.trans hitem⟩

/-- The start of a type starts a declaration. -/
theorem TypeStart.startsItem (type : TypeStart) : StartsItem type.tokens :=
  ⟨.type (type.close default), by simp [tokens, close, Item.tokens, TypeItem.tokens]⟩

/-- The start of a function with its parameters starts a declaration. -/
theorem FunctionStart.startsItem (function : FunctionStart) (params : Option Params)
    (closing : Marked .closeParen) (colon : Marked .colon) (ref : TypeRef) :
    StartsItem (function.tokens ++
      (params.toList.flatMap Params.tokens ++ closing.val :: colon.val :: ref.tokens)) :=
  ⟨.function ⟨function.word, function.name, function.opening, params, closing, colon, ref, default⟩,
    by simp [tokens, Item.tokens, FunctionItem.tokens]⟩

/-- A declaration can be completed after a type reference in it. -/
theorem Site.startsItem (site : Site) (colon : Marked .colon) (ref : TypeRef) :
    StartsItem (site.tokens ++ colon.val :: ref.tokens) := by
  cases site with
  | field type static name =>
      let field : Field := ⟨static, ⟨name, colon, ref⟩, default⟩
      let grown : TypeStart := { type with fields := type.fields ++ [field] }
      apply StartsItem.shorten grown.startsItem
      simp [tokens, TypeStart.tokens, grown, field, Field.tokens, TypedName.tokens]
  | global word name =>
      exact ⟨.global ⟨word, ⟨name, colon, ref⟩, default⟩, by
        simp [tokens, Item.tokens, GlobalItem.tokens, TypedName.tokens]⟩
  | param function before name =>
      let params : Params := ⟨before, ⟨name, colon, ref⟩⟩
      apply StartsItem.shorten (function.startsItem (some params) default default default)
      simp [tokens, params, Params.tokens, TypedName.tokens]
  | result function params closing =>
      apply StartsItem.shorten (function.startsItem params closing colon ref)
      simp [tokens]

/-- A body can be closed, and so can the bodies around it. -/
theorem BodyStart.startsItem (start : BodyStart) (opening : Marked .openBrace) (inner : Body) :
    StartsItem (start.tokens ++ opening.val :: inner.tokens) := by
  induction start generalizing opening inner with
  | member words =>
      exact ⟨.member (.body words opening inner default), by
        simp [tokens, Item.tokens, MemberItem.tokens]⟩
  | localFunction outer outerOpening before word name ih =>
      let closed := Body.localFunction word name opening inner default .nil
      apply StartsItem.shorten (ih outerOpening (before.append closed))
      simp [tokens, closed, Body.tokens]

/-- The first word of a member starts a declaration. -/
theorem BodyWord.startsItem (word : BodyWord) : StartsItem word.tokens := by
  apply StartsItem.shorten (BodyStart.startsItem (word.named default) default .nil)
  cases word <;> simp [tokens, named, BodyStart.tokens, BodyWords.tokens]

/-- A declaration can be completed from every place in it. -/
theorem ItemPlace.startsItem (place : ItemPlace) : StartsItem place.tokens := by
  -- Each place is filled up to the next one for which this is known: missing tokens are default
  -- ones of their kind.
  cases place with
  | item => exact ⟨.global ⟨default, ⟨default, default, default⟩, default⟩, List.nil_prefix⟩
  | afterRef ref =>
      let words := TypeWords.refStructType ref default
      apply StartsItem.shorten (TypeStart.startsItem ⟨words, default, default, []⟩)
      simp [tokens, words, TypeStart.tokens, TypeWords.tokens]
  | typeName words =>
      apply StartsItem.shorten (TypeStart.startsItem ⟨words, default, default, []⟩)
      simp [tokens, TypeStart.tokens]
  | typeOpen words name =>
      apply StartsItem.shorten (TypeStart.startsItem ⟨words, name, default, []⟩)
      simp [tokens, TypeStart.tokens]
  | typeBody type => exact type.startsItem
  | fieldName type static =>
      let site := Site.field type (some static) default
      apply StartsItem.shorten (site.startsItem default default)
      simp [tokens, site, Site.tokens]
  | globalName word =>
      apply StartsItem.shorten (Site.startsItem (.global word default) default default)
      simp [tokens, Site.tokens]
  | functionName word =>
      let function : FunctionStart := ⟨word, default, default⟩
      apply StartsItem.shorten (function.startsItem none default default default)
      simp [tokens, function, FunctionStart.tokens]
  | functionOpen word name =>
      let function : FunctionStart := ⟨word, name, default⟩
      apply StartsItem.shorten (function.startsItem none default default default)
      simp [tokens, function, FunctionStart.tokens]
  | firstParam function =>
      apply StartsItem.shorten (function.startsItem none default default default)
      simp [tokens]
  | paramName function before =>
      apply StartsItem.shorten (Site.startsItem (.param function before default) default default)
      simp [tokens, Site.tokens]
  | typeColon site =>
      apply StartsItem.shorten (site.startsItem default default)
      simp [tokens]
  | typeRef site colon =>
      apply StartsItem.shorten (site.startsItem colon default)
      simp [tokens]
  | stars site colon ref => exact site.startsItem colon ref
  | valueName word =>
      exact ⟨.member (.value word default default (.chain (.primary (.name default))) default), by
        simp [tokens, Item.tokens, MemberItem.tokens]⟩
  | valueEqual word name =>
      exact ⟨.member (.value word name default (.chain (.primary (.name default))) default), by
        simp [tokens, Item.tokens, MemberItem.tokens]⟩
  | value word name op init =>
      obtain ⟨value, hvalue⟩ := init.exists_sum
      refine ⟨.member (.value word name op value default), ?_⟩
      simpa [tokens, Item.tokens, MemberItem.tokens] using hvalue.trans (List.prefix_append ..)
  | bodyName word => exact word.startsItem
  | bodyOpen start =>
      apply StartsItem.shorten (start.startsItem default .nil)
      simp [tokens]
  | body start opening before => exact start.startsItem opening before
  | statement start opening before expr =>
      obtain ⟨value, hvalue⟩ := expr.exists_sum
      let statement := Body.statement value default .nil
      apply StartsItem.shorten (start.startsItem opening (before.append statement))
      simpa [tokens, statement, Body.tokens] using hvalue.trans (List.prefix_append ..)

/-! ## Open programs -/

/-- A row of tokens with which a program starts. -/
def Viable (ts : List Token) : Prop :=
  ∃ d : Program, ts <+: d.tokens

/-- A program that is open has the tokens with which one starts. -/
theorem OpenProgram.viable (q : OpenProgram) : Viable q.tokens := by
  obtain ⟨item, hitem⟩ := q.place.startsItem
  refine ⟨q.before ++ [item], ?_⟩
  simpa [tokens, Program.tokens] using hitem

/-- Reading goes on as long as the row is viable. -/
theorem OpenProgram.feed_ok_iff_viable {ts : List Token} :
    (∃ q, feed shift start ts = .ok q) ↔ Viable ts := by
  constructor
  · intro ⟨q, hfeed⟩
    have htokens : q.tokens = ts := feed_keeps_tokens tokens_shift hfeed
    exact htokens ▸ q.viable
  · intro ⟨d, rest, hd⟩
    have hitems : feed shift start d.tokens = .ok ⟨d, .item⟩ := feed_items [] d
    rw [← hd, feed_append] at hitems
    cases hfeed : feed shift start ts with
    | ok q => exact ⟨q, rfl⟩
    | error t =>
        rw [hfeed] at hitems
        cases hitems

/-- A row is read as part of a program as long as it is viable. -/
theorem feed_ok_iff_viable [Text.CharacterNames] {ts : List Token} :
    (∃ r, feed ProgramReading.shift .start ts = .ok r) ↔ Viable ts := by
  rw [← OpenProgram.feed_ok_iff_viable]
  constructor
  · intro ⟨r, hfeed⟩
    obtain ⟨q, hq, -⟩ := feed_of_map OpenProgram.built_shift .start hfeed
    exact ⟨q, hq⟩
  · intro ⟨q, hfeed⟩
    have hmap := feed_map OpenProgram.built_shift .start ts
    rw [hfeed] at hmap
    exact ⟨q.built, hmap⟩

/-- A row is read to its end without a program if it is viable and no program's row. -/
theorem feed_unfinished_iff [Text.CharacterNames] {ts : List Token} :
    (∃ r, feed ProgramReading.shift .start ts = .ok r ∧ r.value? = none) ↔
      Viable ts ∧ ¬ ∃ d : Program, d.tokens = ts := by
  rw [← feed_ok_iff_viable]
  constructor
  · intro ⟨r, hfeed, hnone⟩
    refine ⟨⟨r, hfeed⟩, fun ⟨d, hd⟩ => ?_⟩
    obtain ⟨r', hfeed', hvalue⟩ := Program.feed_iff_derivation.mpr ⟨d, hd, rfl⟩
    obtain rfl : r = r' := Except.ok.inj (hfeed.symm.trans hfeed')
    cases hnone.symm.trans hvalue
  · intro ⟨⟨r, hfeed⟩, hno⟩
    refine ⟨r, hfeed, ?_⟩
    cases hvalue : r.value? with
    | none => rfl
    | some p =>
      obtain ⟨d, hd, -⟩ := Program.feed_iff_derivation.mp ⟨r, hfeed, hvalue⟩
      exact absurd ⟨d, hd⟩ hno

end Grammar

/-! ## Where a row is refused -/

/-- Reading stops at a token if it goes on to the token and not past it. -/
theorem feed_eq_error_iff {σ : Type} {shift : σ → Token → Option σ} {start : σ} {ts : List Token}
    {t : Token} :
    feed shift start ts = .error t ↔
      ∃ before, before ++ [t] <+: ts ∧ (∃ r, feed shift start before = .ok r) ∧
        ¬ ∃ r, feed shift start (before ++ [t]) = .ok r := by
  constructor
  · intro h
    -- The prefix grows by the tokens that are shifted before the stop.
    induction ts generalizing start with
    | nil => cases h
    | cons u us ih =>
      rw [feed] at h
      split at h
      · next hstop =>
        obtain rfl : u = t := Except.error.inj h
        exact ⟨[], by simp, ⟨start, rfl⟩, by simp [feed, hstop]⟩
      · next next hnext =>
        obtain ⟨before, hstarts, hgoes, hstops⟩ := ih h
        refine ⟨u :: before, ?_, ?_, ?_⟩
        · simpa using hstarts
        · simpa only [Grammar.feed_cons _ hnext] using hgoes
        · simpa only [List.cons_append, Grammar.feed_cons _ hnext] using hstops
  · rintro ⟨before, ⟨after, hts⟩, ⟨r, hgoes⟩, hstops⟩
    have hlast : shift r t = none := by
      cases hshift : shift r t with
      | none => rfl
      | some next =>
        refine absurd ⟨next, ?_⟩ hstops
        rw [Grammar.feed_append_of_ok hgoes, Grammar.feed_cons _ hshift]
        rfl
    rw [← hts, List.append_assoc, Grammar.feed_append_of_ok hgoes]
    simp [feed, hlast]

section

variable {σ α : Type} {v : Vocabulary} {shift : σ → Token → Option σ} {value? : σ → Option α}
  {start : σ} {tokens : Tokens}

/-- Tokens are refused at the first one that cannot be read. -/
theorem readTokens_unexpectedToken_iff {t : Token} :
    readTokens shift value? start tokens = .error (.unexpectedToken t) ↔
      feed shift start tokens.list = .error t := by
  unfold readTokens
  constructor
  · intro h
    split at h
    · next u hfeed =>
      cases h
      exact hfeed
    · cases h
    · split at h <;> cases h
  · intro hfeed
    simp [hfeed]

/-- A text is refused at a character where the tokens before it can be read. -/
theorem readTokens_unexpectedCharacter_iff {c : Char} {p : Position} :
    readTokens shift value? start tokens = .error (.unexpectedCharacter c p) ↔
      tokens.unreadable = some (c, p) ∧ ∃ r, feed shift start tokens.list = .ok r := by
  unfold readTokens
  constructor
  · intro h
    split at h
    · cases h
    · next r c' p' hfeed hunreadable =>
      cases h
      exact ⟨hunreadable, r, hfeed⟩
    · split at h <;> cases h
  · intro ⟨hunreadable, r, hfeed⟩
    simp [hunreadable, hfeed]

/-- A text is refused at its end where it can be read but is no whole. -/
theorem readTokens_unexpectedEnd_iff {p : Position} :
    readTokens shift value? start tokens = .error (.unexpectedEnd p) ↔
      tokens.unreadable = none ∧
        (∃ r, feed shift start tokens.list = .ok r ∧ value? r = none) ∧
          p = endPosition tokens.list := by
  unfold readTokens
  constructor
  · intro h
    split at h
    · cases h
    · cases h
    · next r hfeed hunreadable =>
      split at h
      · cases h
      · next hvalue =>
        cases h
        exact ⟨hunreadable, ⟨r, hfeed, hvalue⟩, rfl⟩
  · intro ⟨hunreadable, ⟨r, hfeed, hvalue⟩, hp⟩
    simp [hunreadable, hfeed, hvalue, hp]

/-- The only error of a literal that refuses a text is an escape. -/
theorem faultIn_refused [Text.CharacterNames] {ts : List Token} {e : SyntaxError}
    (h : faultIn ts = some (.refused e)) : ∃ fault p, e = .badEscape fault p := by
  induction ts with
  | nil => cases h
  | cons t ts ih =>
    rw [faultIn] at h
    split at h
    · cases h
      exact ⟨_, _, rfl⟩
    · cases h
    · exact ih h

/-- Apart from escapes, a text is refused for the row of its tokens. -/
theorem readText_refused_iff [Text.CharacterNames] {source : List Char} {e : SyntaxError}
    (he : ∀ fault p, e ≠ .badEscape fault p) :
    readText v shift value? start source = .error (.refused e) ↔
      readTokens shift value? start (Tokens.ofText v source) = .error e := by
  unfold readText
  cases hread : readTokens shift value? start (Tokens.ofText v source) with
  | error e' => simp [hread]
  | ok a =>
    cases hfault : faultIn (Tokens.ofText v source).list with
    | none => simp [hread, hfault]
    | some fault =>
      simp only [hread, hfault, reduceCtorEq, iff_false]
      intro h
      cases h
      obtain ⟨fault, p, rfl⟩ := faultIn_refused hfault
      exact he fault p rfl

end

/-- A token with which a row stops being viable. -/
structure StopsAt (before : List Token) (t : Token) : Prop where
  viable : Grammar.Viable before
  stops : ¬ Grammar.Viable (before ++ [t])

namespace Program

variable {source : List Char}

/-- A text is refused at the token with which its row stops being viable. -/
theorem parse_unexpectedToken_iff [Text.CharacterNames] {t : Token} :
    Program.parse source = .error (.refused (.unexpectedToken t)) ↔
      ∃ before, before ++ [t] <+: (Tokens.ofText .program source).list ∧ StopsAt before t := by
  rw [parse, readText_refused_iff (by simp), readTokens_unexpectedToken_iff, feed_eq_error_iff]
  simp only [Grammar.feed_ok_iff_viable]
  exact exists_congr fun before => and_congr_right fun _ =>
    ⟨fun ⟨hviable, hstops⟩ => ⟨hviable, hstops⟩, fun h => ⟨h.viable, h.stops⟩⟩

/-- A text is refused at a character if no token starts there and the row in front is viable. -/
theorem parse_unexpectedCharacter_iff [Text.CharacterNames] {c : Char} {p : Position} :
    Program.parse source = .error (.refused (.unexpectedCharacter c p)) ↔
      (Tokens.ofText .program source).unreadable = some (c, p) ∧
        Grammar.Viable (Tokens.ofText .program source).list := by
  rw [parse, readText_refused_iff (by simp), readTokens_unexpectedCharacter_iff,
    Grammar.feed_ok_iff_viable]

/-- A text is refused at its end if its row is viable but not that of a program. -/
theorem parse_unexpectedEnd_iff [Text.CharacterNames] {p : Position} :
    Program.parse source = .error (.refused (.unexpectedEnd p)) ↔
      (Tokens.ofText .program source).unreadable = none ∧
        Grammar.Viable (Tokens.ofText .program source).list ∧
          (¬ ∃ d : Grammar.Program, d.tokens = (Tokens.ofText .program source).list) ∧
            p = endPosition (Tokens.ofText .program source).list := by
  rw [parse, readText_refused_iff (by simp), readTokens_unexpectedEnd_iff,
    Grammar.feed_unfinished_iff, and_assoc]

/-- A text is refused at the first token that no program has after the tokens in front of it. It is
refused at its end, which is where its last token starts, if its tokens are those of the start of a
program but of no program. Texts that agree up to the token at which one is refused are refused
alike, whatever follows, even where no tokens can be read. -/
theorem parse_refused_iff [Text.CharacterNames] (source : List Char) :
    (∀ t, Program.parse source = .error (.refused (.unexpectedToken t)) ↔
        ∃ before, before ++ [t] <+: (Tokens.ofText .program source).list ∧ StopsAt before t) ∧
      (∀ p, Program.parse source = .error (.refused (.unexpectedEnd p)) ↔
        (Tokens.ofText .program source).unreadable = none ∧
          Grammar.Viable (Tokens.ofText .program source).list ∧
            (¬ ∃ d : Grammar.Program, d.tokens = (Tokens.ofText .program source).list) ∧
              p = (((Tokens.ofText .program source).list.getLast?).map (·.position)).getD ⟨1, 1⟩) ∧
      ∀ before t, StopsAt before t → before ++ [t] <+: (Tokens.ofText .program source).list →
        ∀ other, before ++ [t] <+: (Tokens.ofText .program other).list →
          Program.parse source = .error (.refused (.unexpectedToken t)) ∧
            Program.parse other = Program.parse source ∧
              ∀ file, Document.ofText file other = Document.ofText file source := by
  refine ⟨fun t => parse_unexpectedToken_iff, fun p => parse_unexpectedEnd_iff, ?_⟩
  intro before t hstops hsource other hother
  have hrefused := parse_unexpectedToken_iff.mpr ⟨before, hsource, hstops⟩
  have hother' := parse_unexpectedToken_iff.mpr ⟨before, hother, hstops⟩
  refine ⟨hrefused, hother'.trans hrefused.symm, fun file => ?_⟩
  simp only [Document.ofText, hrefused, hother']

/-- A second `fn` is refused whether or not the text after it has tokens. -/
theorem parse_refused_of_fn :
    let source := "fn fn".toList
    let other := "fn fn \"".toList
    (Tokens.ofText .program other).unreadable = some ('"', ⟨1, 7⟩) ∧
      Program.parse other =
        .error (.refused (.unexpectedToken ⟨.keyword .fn, "fn", ⟨1, 4⟩⟩)) ∧
      Program.parse other = Program.parse source := by
  intro source other
  obtain ⟨htoken, -, hsame⟩ := parse_refused_iff source
  obtain ⟨before, hstarts, hstops⟩ := (htoken ⟨.keyword .fn, "fn", ⟨1, 4⟩⟩).mp (by rfl)
  have hlist : (Tokens.ofText .program source).list = (Tokens.ofText .program other).list := by rfl
  obtain ⟨hrefused, hequal, -⟩ := hsame before _ hstops hstarts other (hlist ▸ hstarts)
  exact ⟨by rfl, hequal.trans hrefused, hequal⟩

end Program

end AnonymousObjects.Syntax
