import AnonymousObjects.Proofs.Syntax.Grammar.OpenPrograms
import AnonymousObjects.Proofs.Syntax.Grammar.Sums
import AnonymousObjects.Proofs.Syntax.Readings
import AnonymousObjects.Text.NameTable

/-!
# Programs and their derivations

The tokens of a source text are those of at most one derivation of the grammar, and the text is read
if there is one: then the program is what the derivation builds. `feed_keeps_tokens` gives the
derivation of a text that is read, `OpenProgram.feed_items` reads the tokens of any derivation, and
`Program.parse_iff_derivation` puts the two together.
-/

namespace AnonymousObjects.Syntax.Grammar

/-! ## Tokens are kept -/

/-- The tokens of a type whose fields are being read. -/
def TypeStart.tokens (type : TypeStart) : List Token :=
  type.words.tokens ++ type.name.val :: type.opening.val :: type.fields.flatMap Field.tokens

/-- The tokens of a function up to its parameters. -/
def FunctionStart.tokens (function : FunctionStart) : List Token :=
  [function.word.val, function.name.val, function.opening.val]

/-- The tokens in front of a colon. -/
def Site.tokens : Site → List Token
  | .field type static name => type.tokens ++ (static.toList.map (·.val) ++ [name.val])
  | .global word name => [word.val, name.val]
  | .param function before name =>
    function.tokens ++ (itemTokens TypedName.tokens before ++ [name.val])
  | .result function params closing =>
    function.tokens ++ (params.toList.flatMap Params.tokens ++ [closing.val])

/-- The tokens in front of the opening brace of a body. -/
def BodyStart.tokens : BodyStart → List Token
  | .member words => words.tokens
  | .localFunction outer opening before word name =>
    outer.tokens ++ opening.val :: (before.tokens ++ [word.val, name.val])

/-- The tokens in front of the name of a body. -/
def BodyWord.tokens : BodyWord → List Token
  | .method word => [word.val]
  | .type word => [word.val]
  | .localFunction outer opening before word =>
    outer.tokens ++ opening.val :: (before.tokens ++ [word.val])

/-- The tokens of a declaration that have been read. -/
def ItemPlace.tokens : ItemPlace → List Token
  | .item => []
  | .afterRef ref => [ref.val]
  | .typeName words => words.tokens
  | .typeOpen words name => words.tokens ++ [name.val]
  | .typeBody type => type.tokens
  | .fieldName type static => type.tokens ++ [static.val]
  | .globalName word => [word.val]
  | .functionName word => [word.val]
  | .functionOpen word name => [word.val, name.val]
  | .firstParam function => function.tokens
  | .paramName function before => function.tokens ++ itemTokens TypedName.tokens before
  | .typeColon site => site.tokens
  | .typeRef site colon => site.tokens ++ [colon.val]
  | .stars site colon ref => site.tokens ++ colon.val :: ref.tokens
  | .valueName word => [word.token]
  | .valueEqual word name => [word.token, name.val]
  | .value word name op init => word.token :: name.val :: op.val :: init.tokens
  | .bodyName word => word.tokens
  | .bodyOpen start => start.tokens
  | .body start opening before => start.tokens ++ opening.val :: before.tokens
  | .statement start opening before expr =>
    start.tokens ++ opening.val :: (before.tokens ++ expr.tokens)

/-- The tokens read so far. -/
def OpenProgram.tokens (q : OpenProgram) : List Token :=
  q.before.tokens ++ q.place.tokens

/-- The tokens of two bodies are those of the one and then those of the other. -/
@[simp] theorem Body.tokens_append (before more : Body) :
    (before.append more).tokens = before.tokens ++ more.tokens := by
  induction before with
  | nil => rfl
  | statement value semicolon rest ih => simp [append, tokens, ih]
  | localFunction word name opening inner closing rest _ ih => simp [append, tokens, ih]

/-- Nothing may be put after a body. -/
theorem Body.append_nil (before : Body) : before.append .nil = before := by
  induction before with
  | nil => rfl
  | statement value semicolon rest ih => simp [append, ih]
  | localFunction word name opening inner closing rest _ ih => simp [append, ih]

/-- Bodies may be put one after another in any grouping. -/
theorem Body.append_assoc (before more rest : Body) :
    (before.append more).append rest = before.append (more.append rest) := by
  induction before with
  | nil => rfl
  | statement value semicolon tail ih => simp [append, ih]
  | localFunction word name opening inner closing tail _ ih => simp [append, ih]

namespace OpenProgram

variable {q q' : OpenProgram} {t : Token}

/-- A word that opens a declaration is its only token so far. -/
theorem tokens_openItem {place : ItemPlace} (h : openItem t = some place) :
    place.tokens = [t] := by
  unfold openItem at h
  split at h
  case h_12 => cases h
  all_goals
    cases h
    rfl

/-- A mark that ends a type is the next token. -/
theorem tokens_closeTypeRef {site : Site} {colon : Marked .colon} {ref : TypeRef} {m : Mark}
    {t : Marked m} (h : q.closeTypeRef site colon ref m t = some q') :
    q'.tokens = (q.move (.stars site colon ref)).tokens ++ [t.val] := by
  unfold closeTypeRef at h
  split at h
  case h_6 => cases h
  all_goals
    cases h
    simp [tokens, move, finish, ItemPlace.tokens, Site.tokens, TypeStart.tokens, Field.tokens,
      FunctionStart.tokens, TypedName.tokens, Program.tokens, Item.tokens, GlobalItem.tokens,
      FunctionItem.tokens, Params.tokens]

/-- A brace that closes a body is the next token. -/
theorem tokens_closeBody (q : OpenProgram) (opening : Marked .openBrace) (inner : Body)
    (closing : Marked .closeBrace) (start : BodyStart) :
    (q.closeBody opening inner closing start).tokens =
      (q.move (.body start opening inner)).tokens ++ [closing.val] := by
  cases start <;>
    simp [closeBody, tokens, move, finish, ItemPlace.tokens, BodyStart.tokens, Program.tokens,
      Item.tokens, MemberItem.tokens, Body.tokens]

/-- A token that is shifted is kept. -/
theorem tokens_shift (h : q.shift t = some q') : q'.tokens = q.tokens ++ [t] := by
  obtain ⟨before, place⟩ := q
  cases place with
  | item =>
      obtain ⟨place, hplace, rfl⟩ := Option.map_eq_some_iff.mp h
      show before.tokens ++ place.tokens = before.tokens ++ [] ++ [t]
      rw [tokens_openItem hplace, List.append_nil]
  | stars site colon ref =>
      simp only [shift] at h
      split at h
      · cases h
        simp [tokens, move, ItemPlace.tokens, TypeRef.tokens]
      · exact tokens_closeTypeRef h
      · cases h
  | value word name op init =>
      simp only [shift] at h
      split at h
      · obtain ⟨value, hvalue, rfl⟩ := Option.map_eq_some_iff.mp h
        simp [tokens, finish, ItemPlace.tokens, Program.tokens, Item.tokens, MemberItem.tokens,
          OpenSum.tokens_value? hvalue]
      · obtain ⟨next, hnext, rfl⟩ := Option.map_eq_some_iff.mp h
        simp [tokens, move, ItemPlace.tokens, OpenSum.tokens_shift hnext]
  | body start opening inner =>
      simp only [shift] at h
      split at h
      · cases h
        exact tokens_closeBody _ opening inner _ start
      · cases h
        simp [tokens, move, ItemPlace.tokens, BodyWord.tokens]
      · obtain ⟨next, hnext, rfl⟩ := Option.map_eq_some_iff.mp h
        have htokens : next.tokens = [t] := OpenSum.tokens_shift hnext
        simp [tokens, move, ItemPlace.tokens, htokens]
  | statement start opening inner expr =>
      simp only [shift] at h
      split at h
      · obtain ⟨value, hvalue, rfl⟩ := Option.map_eq_some_iff.mp h
        simp [tokens, move, ItemPlace.tokens, Body.tokens, OpenSum.tokens_value? hvalue]
      · obtain ⟨next, hnext, rfl⟩ := Option.map_eq_some_iff.mp h
        simp [tokens, move, ItemPlace.tokens, OpenSum.tokens_shift hnext]
  | typeBody type =>
      simp only [shift] at h
      split at h
      all_goals
        cases h
        try simp [tokens, move, finish, ItemPlace.tokens, Site.tokens, TypeStart.tokens,
          TypeStart.close, Program.tokens, Item.tokens, TypeItem.tokens]
  | bodyName word =>
      simp only [shift] at h
      split at h
      · cases h
        cases word <;>
          simp [tokens, move, ItemPlace.tokens, BodyWord.tokens, BodyWord.named, BodyStart.tokens,
            BodyWords.tokens]
      · cases h
  | _ =>
      simp only [shift] at h
      split at h
      all_goals
        cases h
        try simp [tokens, move, ItemPlace.tokens, Site.tokens, TypeStart.tokens,
          FunctionStart.tokens, TypeRef.tokens, TypeWords.tokens, Body.tokens, OpenSum.tokens,
          OpenSum.start, bracketTokens, leftTokens, Place.tokens]

/-! ## Derivations are read -/

variable {before : Program}

/-- Reading the stars of a type reference. -/
theorem feed_stars (before : Program) (site : Site) (colon : Marked .colon) (name : Ident)
    (read rest : List (Marked .star)) :
    feed shift ⟨before, .stars site colon ⟨name, read⟩⟩ (rest.map (·.val)) =
      .ok ⟨before, .stars site colon ⟨name, read ++ rest⟩⟩ := by
  induction rest generalizing read with
  | nil => simp [feed]
  | cons star rest ih =>
    obtain ⟨text, position, rfl⟩ := star.exists_eq
    rw [List.map_cons, feed_cons _ rfl, move, ih]
    simp

/-- Reading a colon and a type reference. -/
theorem feed_type (before : Program) (site : Site) :
    ∀ (colon : Marked .colon) (ref : TypeRef),
      feed shift ⟨before, .typeColon site⟩ (colon.val :: ref.tokens) =
        .ok ⟨before, .stars site colon ref⟩
  | ⟨⟨_, _, _⟩, rfl⟩, ⟨⟨⟨_, _, _⟩, rfl⟩, stars⟩ => feed_stars before site _ _ [] stars

/-- Reading a field of a type. -/
theorem feed_field (before : Program) (type : TypeStart) : ∀ field : Field,
    feed shift ⟨before, .typeBody type⟩ field.tokens =
      .ok ⟨before, .typeBody { type with fields := type.fields ++ [field] }⟩
  | ⟨none, ⟨⟨⟨_, _, _⟩, rfl⟩, colon, ref⟩, ⟨⟨_, _, _⟩, rfl⟩⟩ =>
    feed_append_of_ok (feed_type before _ colon ref)
  | ⟨some ⟨⟨_, _, _⟩, rfl⟩, ⟨⟨⟨_, _, _⟩, rfl⟩, colon, ref⟩, ⟨⟨_, _, _⟩, rfl⟩⟩ =>
    feed_append_of_ok (feed_type before _ colon ref)

/-- Reading fields of a type. -/
theorem feed_fields (before : Program) (type : TypeStart) (fields : List Field) :
    feed shift ⟨before, .typeBody type⟩ (fields.flatMap Field.tokens) =
      .ok ⟨before, .typeBody { type with fields := type.fields ++ fields }⟩ := by
  induction fields generalizing type with
  | nil => simp [feed]
  | cons field fields ih =>
    rw [List.flatMap_cons, feed_append_of_ok (feed_field before type field), ih]
    simp

/-- Reading the words in front of a type. -/
theorem feed_words (before : Program) : ∀ words : TypeWords,
    feed shift ⟨before, .item⟩ words.tokens = .ok ⟨before, .typeName words⟩
  | .classType ⟨⟨_, _, _⟩, rfl⟩ => rfl
  | .structType ⟨⟨_, _, _⟩, rfl⟩ => rfl
  | .refStructType ⟨⟨_, _, _⟩, rfl⟩ ⟨⟨_, _, _⟩, rfl⟩ => rfl

/-- Reading a type declaration. -/
theorem feed_typeItem (before : Program) : ∀ item : TypeItem,
    feed shift ⟨before, .item⟩ item.tokens = .ok ⟨before ++ [.type item], .item⟩
  | ⟨words, ⟨⟨_, _, _⟩, rfl⟩, ⟨⟨_, _, _⟩, rfl⟩, fields, ⟨⟨_, _, _⟩, rfl⟩⟩ => by
      rw [TypeItem.tokens, feed_append_of_ok (feed_words before words), feed_cons _ rfl,
        feed_cons _ rfl]
      exact feed_append_of_ok (feed_fields before _ fields)

/-- Reading a global. -/
theorem feed_globalItem (before : Program) : ∀ item : GlobalItem,
    feed shift ⟨before, .item⟩ item.tokens = .ok ⟨before ++ [.global item], .item⟩
  | ⟨⟨⟨_, _, _⟩, rfl⟩, ⟨⟨⟨_, _, _⟩, rfl⟩, colon, ref⟩, ⟨⟨_, _, _⟩, rfl⟩⟩ =>
    feed_append_of_ok (feed_type before _ colon ref)

/-- Reading the parameters of a function, from a place where a parameter may start. -/
theorem feed_params (before : Program) (function : FunctionStart) (place : ItemPlace)
    (read rest : List (TypedName × Marked .comma)) (last : TypedName)
    (closing : Marked .closeParen)
    (hplace : ∀ name : Ident, shift ⟨before, place⟩ name.val =
      some ⟨before, .typeColon (.param function read name)⟩) :
    feed shift ⟨before, place⟩ (Params.tokens ⟨rest, last⟩ ++ [closing.val]) =
      .ok ⟨before, .typeColon (.result function (some ⟨read ++ rest, last⟩) closing)⟩ := by
  induction rest generalizing place read with
  | nil =>
    obtain ⟨name, colon, ref⟩ := last
    match closing with
    | ⟨⟨_, _, _⟩, rfl⟩ =>
      simp only [Params.tokens, itemTokens_nil, List.nil_append, TypedName.tokens,
        List.cons_append, List.append_nil]
      rw [feed_cons _ (hplace name)]
      exact feed_append_of_ok (feed_type before _ colon ref)
  | cons param rest ih =>
    obtain ⟨⟨name, colon, ref⟩, comma⟩ := param
    match comma with
    | ⟨⟨_, text, position⟩, rfl⟩ =>
      let param : TypedName × Marked .comma :=
        (⟨name, colon, ref⟩, ⟨⟨.mark .comma, text, position⟩, rfl⟩)
      -- After a comma the next parameter may start, with this one among those that have been read.
      have hrest := ih (.paramName function (read ++ [param])) (read ++ [param]) fun name => by
        match name with
        | ⟨⟨_, _, _⟩, rfl⟩ => rfl
      rw [← List.append_cons] at hrest
      simp only [Params.tokens, itemTokens_cons, List.append_assoc, List.cons_append,
        TypedName.tokens] at hrest ⊢
      rw [feed_cons _ (hplace name)]
      refine (feed_append_of_ok (feed_type before _ colon ref)).trans ?_
      rw [feed_cons _ rfl]
      exact hrest

/-- Reading a function. -/
theorem feed_functionItem (before : Program) : ∀ item : FunctionItem,
    feed shift ⟨before, .item⟩ item.tokens = .ok ⟨before ++ [.function item], .item⟩
  | ⟨⟨⟨_, _, _⟩, rfl⟩, ⟨⟨_, _, _⟩, rfl⟩, ⟨⟨_, _, _⟩, rfl⟩, none, ⟨⟨_, _, _⟩, rfl⟩, colon, ref,
      ⟨⟨_, _, _⟩, rfl⟩⟩ =>
    feed_append_of_ok (feed_type before _ colon ref)
  | ⟨⟨⟨_, word, start⟩, rfl⟩, ⟨⟨_, name, position⟩, rfl⟩, ⟨⟨_, bracket, place⟩, rfl⟩,
      some ⟨rest, last⟩, closing, colon, ref, ⟨⟨_, _, _⟩, rfl⟩⟩ => by
      let function : FunctionStart :=
        ⟨⟨⟨.keyword .fn, word, start⟩, rfl⟩, ⟨⟨.name, name, position⟩, rfl⟩,
          ⟨⟨.mark .openParen, bracket, place⟩, rfl⟩⟩
      have hparams := feed_params before function (.firstParam function) [] rest last closing
        fun name => by
          match name with
          | ⟨⟨_, _, _⟩, rfl⟩ => rfl
      rw [FunctionItem.tokens, feed_cons _ rfl, feed_cons _ rfl, feed_cons _ rfl,
        Option.toList_some, List.flatMap_singleton, List.append_cons]
      refine (feed_append_of_ok hparams).trans ?_
      exact feed_append_of_ok (feed_type before _ colon ref)

/-! ### Expressions in declarations -/

/-- No sum goes on with a semicolon. -/
theorem shift_semicolon {q : OpenSum} {t : Token} (ht : t.kind = .mark .semicolon) :
    q.shift t = none := by
  obtain ⟨brackets, left, place⟩ := q
  obtain ⟨kind, text, position⟩ := t
  obtain rfl : kind = .mark .semicolon := ht
  cases place <;> rfl

/-- Reading an expression where a semicolon may end it. -/
theorem feed_expr (before : Program) (place : OpenSum → ItemPlace)
    (hplace : ∀ {q t q'}, OpenSum.shift q t = some q' →
      shift ⟨before, place q⟩ t = some ⟨before, place q'⟩)
    {q q' : OpenSum} {ts : List Token} (h : feed OpenSum.shift q ts = .ok q') :
    feed shift ⟨before, place q⟩ ts = .ok ⟨before, place q'⟩ := by
  induction ts generalizing q with
  | nil =>
    obtain rfl : q = q' := Except.ok.inj h
    rfl
  | cons t ts ih =>
    rw [feed] at h
    split at h
    · cases h
    · next next hnext => rw [feed_cons _ (hplace hnext), ih h]

/-- Reading the expression of a value. -/
theorem shift_value {word : ValueWord} {name : Ident} {op : Marked .equal} {q q' : OpenSum}
    {t : Token} (h : q.shift t = some q') :
    shift ⟨before, .value word name op q⟩ t = some ⟨before, .value word name op q'⟩ := by
  have ht : t.kind ≠ .mark .semicolon := by
    intro ht
    rw [shift_semicolon ht] at h
    cases h
  simp [shift, h, move]

/-- Reading the expression of a statement. -/
theorem shift_statement {start : BodyStart} {opening : Marked .openBrace} {inner : Body}
    {q q' : OpenSum} {t : Token} (h : q.shift t = some q') :
    shift ⟨before, .statement start opening inner q⟩ t =
      some ⟨before, .statement start opening inner q'⟩ := by
  have ht : t.kind ≠ .mark .semicolon := by
    intro ht
    rw [shift_semicolon ht] at h
    cases h
  simp [shift, h, move]

/-- Reading the first token of a statement. -/
theorem shift_body {start : BodyStart} {opening : Marked .openBrace} {inner : Body} {q : OpenSum}
    {t : Token} (h : OpenSum.start.shift t = some q) :
    shift ⟨before, .body start opening inner⟩ t =
      some ⟨before, .statement start opening inner q⟩ := by
  have hbrace : t.kind ≠ .mark .closeBrace := by
    intro ht
    obtain ⟨kind, text, position⟩ := t
    obtain rfl : kind = .mark .closeBrace := ht
    cases h
  have hlocal : t.kind ≠ .keyword .local := by
    intro ht
    obtain ⟨kind, text, position⟩ := t
    obtain rfl : kind = .keyword .local := ht
    cases h
  simp [shift, h, move]

/-- Reading a statement. -/
theorem feed_statement (before : Program) (start : BodyStart) (opening : Marked .openBrace)
    (inner : Body) (value : Sum) (semicolon : Marked .semicolon) (rest : List Token) :
    feed shift ⟨before, .body start opening inner⟩ (value.tokens ++ semicolon.val :: rest) =
      feed shift ⟨before, .body start opening (inner.append (.statement value semicolon .nil))⟩
        rest := by
  obtain ⟨q, hfeed, hvalue⟩ := value.feed_start
  have hstatement : feed shift ⟨before, .body start opening inner⟩ value.tokens =
      .ok ⟨before, .statement start opening inner q⟩ := by
    obtain ⟨t, ts, htokens, -⟩ := value.opens
    rw [htokens, feed] at hfeed
    split at hfeed
    · cases hfeed
    · next next hnext =>
      rw [htokens, feed_cons _ (shift_body hnext)]
      exact feed_expr before _ shift_statement hfeed
  rw [feed_append_of_ok hstatement]
  apply feed_cons
  obtain ⟨text, position, rfl⟩ := semicolon.exists_eq
  simp [shift, hvalue, move]

/-- Reading the rest of a body. -/
theorem feed_body (before : Program) : ∀ (more : Body) (start : BodyStart)
    (opening : Marked .openBrace) (inner : Body),
    feed shift ⟨before, .body start opening inner⟩ more.tokens =
      .ok ⟨before, .body start opening (inner.append more)⟩
  | .nil, start, opening, inner => by
      rw [Body.append_nil]
      rfl
  | .statement value semicolon rest, start, opening, inner => by
      rw [Body.tokens, feed_statement, feed_body before rest, Body.append_assoc]
      rfl
  | .localFunction ⟨⟨_, _, _⟩, rfl⟩ ⟨⟨_, _, _⟩, rfl⟩ ⟨⟨_, _, _⟩, rfl⟩ body ⟨⟨_, _, _⟩, rfl⟩ rest,
      start, opening, inner => by
      rw [Body.tokens, feed_cons _ rfl, feed_cons _ rfl, feed_cons _ rfl]
      refine (feed_append_of_ok (feed_body before body _ _ .nil)).trans ?_
      rw [feed_cons _ rfl]
      refine (feed_body before rest _ _ _).trans ?_
      rw [Body.append_assoc]
      rfl

/-- Reading the words in front of a body. -/
theorem feed_bodyWords (before : Program) : ∀ words : BodyWords,
    feed shift ⟨before, .item⟩ words.tokens = .ok ⟨before, .bodyOpen (.member words)⟩
  | .method ⟨⟨_, _, _⟩, rfl⟩ ⟨⟨_, _, _⟩, rfl⟩ => rfl
  | .type ⟨⟨_, _, _⟩, rfl⟩ ⟨⟨_, _, _⟩, rfl⟩ => rfl
  | .script ⟨⟨_, _, _⟩, rfl⟩ => rfl

/-- Reading the word in front of a value. -/
theorem shift_valueWord (before : Program) : ∀ word : ValueWord,
    shift ⟨before, .item⟩ word.token = some ⟨before, .valueName word⟩
  | .field ⟨⟨_, _, _⟩, rfl⟩ => rfl
  | .const ⟨⟨_, _, _⟩, rfl⟩ => rfl
  | .param ⟨⟨_, _, _⟩, rfl⟩ => rfl

/-- Reading a member. -/
theorem feed_memberItem (before : Program) : ∀ item : MemberItem,
    feed shift ⟨before, .item⟩ item.tokens = .ok ⟨before ++ [.member item], .item⟩
  | .value word ⟨⟨_, _, _⟩, rfl⟩ ⟨⟨_, _, _⟩, rfl⟩ init ⟨⟨_, _, _⟩, rfl⟩ => by
      obtain ⟨q, hfeed, hvalue⟩ := init.feed_start
      rw [MemberItem.tokens, feed_cons _ (shift_valueWord before word), feed_cons _ rfl,
        feed_cons _ rfl]
      refine (feed_append_of_ok (feed_expr before (.value word _ _) shift_value hfeed)).trans ?_
      simp [feed, shift, hvalue, finish]
  | .body words ⟨⟨_, _, _⟩, rfl⟩ inner ⟨⟨_, _, _⟩, rfl⟩ => by
      rw [MemberItem.tokens, feed_append_of_ok (feed_bodyWords before words), feed_cons _ rfl]
      exact feed_append_of_ok (feed_body before inner _ _ .nil)

/-- Reading a declaration. -/
theorem feed_item (before : Program) (item : Item) :
    feed shift ⟨before, .item⟩ item.tokens = .ok ⟨before ++ [item], .item⟩ := by
  cases item with
  | type item => exact feed_typeItem before item
  | global item => exact feed_globalItem before item
  | function item => exact feed_functionItem before item
  | member item => exact feed_memberItem before item

/-- Reading declarations. -/
theorem feed_items (before more : Program) :
    feed shift ⟨before, .item⟩ more.tokens = .ok ⟨before ++ more, .item⟩ := by
  induction more generalizing before with
  | nil => simp [feed, Program.tokens]
  | cons item more ih =>
    rw [Program.tokens, List.flatMap_cons, feed_append_of_ok (feed_item before item)]
    refine (ih _).trans ?_
    simp

/-- A row of tokens is read into a derivation if it is the row that it derives. -/
theorem feed_iff_tokens {ts : List Token} {d : Program} :
    (∃ q, feed shift start ts = .ok q ∧ q.value? = some d) ↔ d.tokens = ts := by
  constructor
  · intro ⟨q, hfeed, hvalue⟩
    have htokens := feed_keeps_tokens tokens_shift hfeed
    obtain ⟨before, place⟩ := q
    cases place with
    | item =>
        obtain rfl : before = d := Option.some.inj hvalue
        simpa [tokens, start, ItemPlace.tokens, Program.tokens] using htokens
    | _ => cases hvalue
  · intro h
    exact ⟨⟨d, .item⟩, h ▸ feed_items [] d, rfl⟩

end OpenProgram

/-- The grammar is unambiguous. -/
theorem Program.tokens_injective {d d' : Program} (h : d.tokens = d'.tokens) : d = d' := by
  obtain ⟨q, hfeed, hvalue⟩ := OpenProgram.feed_iff_tokens.mpr h
  obtain ⟨q', hfeed', hvalue'⟩ := OpenProgram.feed_iff_tokens.mpr (rfl : d'.tokens = d'.tokens)
  obtain rfl : q = q' := Except.ok.inj (hfeed.symm.trans hfeed')
  exact Option.some.inj (hvalue.symm.trans hvalue')

/-- A row of tokens is read as a program if it is the row of a derivation that builds the
program. -/
theorem Program.feed_iff_derivation [Text.CharacterNames] {ts : List Token} {p : Syntax.Program} :
    (∃ r, feed ProgramReading.shift .start ts = .ok r ∧ r.value? = some p) ↔
      ∃ d : Program, d.tokens = ts ∧ d.build = p := by
  constructor
  · intro ⟨r, hfeed, hvalue⟩
    obtain ⟨q, hq, rfl⟩ := feed_of_map OpenProgram.built_shift .start hfeed
    rw [q.built_value?] at hvalue
    obtain ⟨d, hd, hbuild⟩ := Option.map_eq_some_iff.mp hvalue
    exact ⟨d, OpenProgram.feed_iff_tokens.mp ⟨q, hq, hd⟩, hbuild⟩
  · intro ⟨d, hd, hbuild⟩
    obtain ⟨q, hfeed, hvalue⟩ := OpenProgram.feed_iff_tokens.mpr hd
    have hmap := feed_map OpenProgram.built_shift .start ts
    rw [hfeed] at hmap
    refine ⟨q.built, hmap, ?_⟩
    rw [q.built_value?, hvalue, ← hbuild]
    rfl

end AnonymousObjects.Syntax.Grammar

namespace AnonymousObjects.Syntax

/-- Literals have no faults if the strings decode and the integers are short enough. -/
theorem faultIn_eq_none [Text.CharacterNames] {ts : List Token}
    (hstrings : ∀ t ∈ ts, t.kind = .string → ∃ text, Text.Escape.decode t.content = .ok text)
    (hintegers : ∀ t ∈ ts, t.kind = .integer → t.text.length ≤ 4300) : faultIn ts = none := by
  rw [faultIn_eq_none_iff]
  intro t ht
  unfold Token.fault?
  split
  · next hkind =>
    obtain ⟨text, htext⟩ := hstrings t ht hkind
    rw [htext]
  · next hkind => exact if_pos (hintegers t ht hkind)
  · rfl

/-- A source text is read exactly if its tokens are derivable from the grammar. It has one
derivation then, and is read into what that builds. -/
theorem Program.parse_iff_derivation [Text.CharacterNames] {source : List Char}
    (hlex : (Tokens.ofText .program source).unreadable = none)
    (hstrings : ∀ t ∈ (Tokens.ofText .program source).list, t.kind = .string →
      ∃ text, Text.Escape.decode t.content = .ok text)
    (hintegers : ∀ t ∈ (Tokens.ofText .program source).list, t.kind = .integer →
      t.text.length ≤ 4300) :
    let ts := (Tokens.ofText .program source).list
    ((∃ p, Program.parse source = .ok p) ↔ ∃ d : Grammar.Program, d.tokens = ts) ∧
      (∀ d d' : Grammar.Program, d.tokens = ts → d'.tokens = ts → d = d') ∧
      ∀ d : Grammar.Program, d.tokens = ts → Program.parse source = .ok d.build := by
  intro ts
  have hbuild : ∀ d : Grammar.Program, d.tokens = ts → Program.parse source = .ok d.build := by
    intro d hd
    obtain ⟨q, hfeed, hvalue⟩ := Grammar.OpenProgram.feed_iff_tokens.mpr hd
    -- Derivations and readings take the same tokens step by step, so one is fed through the other.
    have hmap := Grammar.feed_map Grammar.OpenProgram.built_shift .start ts
    rw [hfeed] at hmap
    have hbuilt : q.built.value? = some d.build := by rw [q.built_value?, hvalue]; rfl
    exact readText_of_feed hlex (faultIn_eq_none hstrings hintegers) hmap hbuilt
  refine ⟨⟨?_, fun ⟨d, hd⟩ => ⟨_, hbuild d hd⟩⟩, ?_, hbuild⟩
  · intro ⟨p, hp⟩
    obtain ⟨r, hfeed, hvalue⟩ := readText_eq_ok hp
    obtain ⟨q, hq, rfl⟩ :=
      Grammar.feed_of_map Grammar.OpenProgram.built_shift .start hfeed
    rw [q.built_value?] at hvalue
    obtain ⟨d, hd, -⟩ := Option.map_eq_some_iff.mp hvalue
    exact ⟨d, Grammar.OpenProgram.feed_iff_tokens.mp ⟨q, hq, hd⟩⟩
  · intro d d' hd hd'
    exact Grammar.Program.tokens_injective (hd.trans hd'.symm)

/-- A method with a statement and a local function has one derivation. -/
theorem derivation_of_method :
    let source := "method m \x7b x + 1; local f \x7b \x7d \x7d".toList
    let ts := (Tokens.ofText .program source).list
    (∃ d : Grammar.Program, d.tokens = ts) ∧
      ∀ d d' : Grammar.Program, d.tokens = ts → d'.tokens = ts → d = d' := by
  intro source ts
  have hlex : (Tokens.ofText .program source).unreadable = none := rfl
  have hkinds : ∀ t ∈ ts, t.kind ≠ .string ∧ (t.kind = .integer → t.text.length ≤ 4300) := by
    decide +kernel
  have hstrings : ∀ t ∈ ts, t.kind = .string →
      ∃ text, Text.Escape.decode t.content = .ok text :=
    fun t ht hkind => absurd hkind (hkinds t ht).1
  obtain ⟨hiff, hunique, -⟩ :=
    Program.parse_iff_derivation hlex hstrings fun t ht => (hkinds t ht).2
  exact ⟨hiff.mp ⟨_, rfl⟩, hunique⟩

end AnonymousObjects.Syntax
