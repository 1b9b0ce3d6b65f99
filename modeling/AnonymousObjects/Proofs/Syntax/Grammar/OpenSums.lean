import AnonymousObjects.Proofs.Syntax.Grammar.Trees
import AnonymousObjects.Syntax.Parse

/-!
# Derivations read token by token

An `OpenSum` is a derivation of an expression of which some tokens have been read. It shifts tokens
as a `Reading` does, but keeps them all; `OpenSum.built_shift` says that what it builds is always
the reading of the same tokens.
-/

namespace AnonymousObjects.Syntax.Grammar

/-! ## Rows of tokens -/

section Feeding

variable {σ τ : Type} {shift : σ → Token → Option σ}

/-- Reading commutes with a map that commutes with every step. -/
theorem feed_map {shift' : τ → Token → Option τ} {f : σ → τ}
    (hshift : ∀ q t, shift' (f q) t = (shift q t).map f) (q : σ) (ts : List Token) :
    feed shift' (f q) ts = (feed shift q ts).map f := by
  induction ts generalizing q with
  | nil => rfl
  | cons t ts ih =>
    simp only [feed, hshift]
    cases shift q t with
    | none => rfl
    | some next => exact ih next

/-- What is read through such a map is what is read without it. -/
theorem feed_of_map {shift' : τ → Token → Option τ} {f : σ → τ}
    (hshift : ∀ q t, shift' (f q) t = (shift q t).map f) (q : σ) {ts : List Token} {r : τ}
    (h : feed shift' (f q) ts = .ok r) : ∃ q', feed shift q ts = .ok q' ∧ r = f q' := by
  rw [feed_map hshift] at h
  cases hq : feed shift q ts with
  | error t =>
      rw [hq] at h
      cases h
  | ok q' =>
      rw [hq] at h
      exact ⟨q', rfl, (Except.ok.inj h).symm⟩

/-- If each step keeps its token, reading keeps the row. -/
theorem feed_keeps_tokens {tokens : σ → List Token}
    (hshift : ∀ {q q' t}, shift q t = some q' → tokens q' = tokens q ++ [t]) {q q' : σ}
    {ts : List Token} (h : feed shift q ts = .ok q') : tokens q' = tokens q ++ ts := by
  induction ts generalizing q with
  | nil =>
    obtain rfl : q = q' := Except.ok.inj h
    simp
  | cons t ts ih =>
    rw [feed] at h
    split at h
    · cases h
    · next next hnext => simp [ih h, hshift hnext]

/-- Reading a first token. -/
theorem feed_cons {q : σ} {t : Token} {ts : List Token} (q' : σ) (h : shift q t = some q') :
    feed shift q (t :: ts) = feed shift q' ts := by
  simp [feed, h]

/-- Reading a first row of tokens. -/
theorem feed_append_of_ok {q q' : σ} {ts us : List Token} (h : feed shift q ts = .ok q') :
    feed shift q (ts ++ us) = feed shift q' us := by
  rw [feed_append, h]
  rfl

end Feeding

/-! ## Positions -/

/-- An operation that leaves the start where it is does so inside of a conditional access. -/
theorem extend_position (operation : Expr → Expr)
    (h : ∀ e : Expr, (operation e).position = e.position) (e : Expr) :
    (e.extend operation).position = e.position := by
  cases e with
  | conditionalAccess p target access => rfl
  | _ => exact h _

/-- A path starts where its first name does. -/
theorem pathExpr_position {start : Position} {path : Expr} (h : path.position = some start)
    (rest : List (Marked .colons × Ident)) : (pathExpr start path rest).position = some start := by
  induction rest generalizing path with
  | nil => exact h
  | cons more rest ih => exact ih rfl

/-- A primary expression is reported where it starts. -/
theorem Primary.build_position [Text.CharacterNames] (head : Primary) :
    head.build.position = some head.start := by
  cases head with
  | qualifiedName first op second rest => exact pathExpr_position rfl _
  | _ => rfl

/-- An operand is reported where it starts. -/
theorem Chain.build_position [Text.CharacterNames] (operand : Chain) :
    operand.build.position = some operand.start := by
  cases operand with
  | primary head => exact head.build_position
  | member target _ _ =>
    exact (extend_position (Reading.access _) (fun _ => rfl) _).trans target.build_position
  | conditional target _ _ =>
    exact (extend_position (Reading.conditional _) (fun _ => rfl) _).trans target.build_position
  | call callee _ _ =>
    exact (extend_position (Reading.call _) (fun _ => rfl) _).trans callee.build_position
  | callWith callee _ _ _ =>
    exact (extend_position (Reading.call _) (fun _ => rfl) _).trans callee.build_position

/-- A sum is reported where it starts. -/
theorem Sum.build_position [Text.CharacterNames] (s : Sum) : s.build.position = some s.start := by
  cases s with
  | chain operand => exact operand.build_position
  | plus left plus right => rfl

/-! ## Paths -/

/-- The names of a path, with the operators between them. -/
abbrev Names : Type :=
  Ident × List (Marked .colons × Ident)

/-- A path of names, or a single name. -/
def Primary.ofNames : Names → Primary
  | (first, []) => .name first
  | (first, (op, second) :: rest) => .qualifiedName first op second rest

/-- The names of an operand that is a path. -/
def Chain.names? : Chain → Option Names
  | .primary (.name first) => some (first, [])
  | .primary (.qualifiedName first op second rest) => some (first, (op, second) :: rest)
  | _ => none

/-- The tokens of a path. -/
def Names.tokens (names : Names) : List Token :=
  names.1.val :: names.2.flatMap fun more => [more.1.val, more.2.val]

/-- The expression of a path. -/
def Names.build (names : Names) : Expr :=
  pathExpr names.1.val.position (.identifier (Reading.nameOf names.1.val)) names.2

/-- Names in a row start where the first of them does. -/
theorem Names.build_position (names : Names) :
    names.build.position = some names.1.val.position :=
  pathExpr_position rfl _

/-- A path of names has the tokens of the names. -/
theorem Primary.tokens_ofNames (names : Names) :
    (Primary.ofNames names).tokens = Names.tokens names := by
  obtain ⟨first, rest⟩ := names
  cases rest <;> simp [ofNames, Primary.tokens, Names.tokens]

/-- A path of names builds the path. -/
theorem Primary.build_ofNames [Text.CharacterNames] (names : Names) :
    (Primary.ofNames names).build = Names.build names := by
  obtain ⟨first, rest⟩ := names
  cases rest <;> rfl

/-- A chain of names alone is a path of them. -/
theorem Chain.eq_of_names? {operand : Chain} {names : Names} (h : operand.names? = some names) :
    operand = .primary (.ofNames names) := by
  unfold names? at h
  split at h
  · cases h; rfl
  · cases h; rfl
  · cases h

/-- A path of names is a chain of names alone. -/
theorem Chain.names?_ofNames (names : Names) :
    (Chain.primary (.ofNames names)).names? = some names := by
  obtain ⟨first, rest⟩ := names
  cases rest <;> rfl

/-- A path goes on with one more name. -/
theorem pathExpr_append (start : Position) (path : Expr) (rest : List (Marked .colons × Ident))
    (more : Marked .colons × Ident) :
    pathExpr start path (rest ++ [more]) =
      .qualifiedName (some start) (pathExpr start path rest) (Reading.nameOf more.2.val) := by
  induction rest generalizing path with
  | nil => rfl
  | cons first rest ih => exact ih _

/-- A path on a path is a path. -/
theorem pathExpr_isPath {path : Expr} (start : Position) (h : path.isPath = true)
    (rest : List (Marked .colons × Ident)) : (pathExpr start path rest).isPath = true := by
  induction rest generalizing path with
  | nil => exact h
  | cons more rest ih => exact ih rfl

/-- An operation that makes no path makes none inside of a conditional access. -/
theorem extend_isPath {operation : Expr → Expr} (h : ∀ e : Expr, (operation e).isPath = false)
    (e : Expr) : (e.extend operation).isPath = false := by
  cases e with
  | conditionalAccess p target access => rfl
  | _ => exact h _

/-- A chain of names alone builds their path. -/
theorem Chain.build_of_names? [Text.CharacterNames] {operand : Chain} {names : Names}
    (h : operand.names? = some names) : operand.build = names.build := by
  rw [operand.eq_of_names? h, Chain.build, Primary.build_ofNames]

/-- An operand builds a path if it is one. -/
theorem Chain.build_isPath [Text.CharacterNames] (operand : Chain) :
    operand.build.isPath = operand.names?.isSome := by
  cases operand with
  | primary head =>
      cases head with
      | qualifiedName first op second rest => exact pathExpr_isPath _ rfl _
      | _ => rfl
  | _ => exact extend_isPath (fun _ => rfl) _

/-- An operand that builds an identifier is a name. -/
theorem Chain.build_identifier [Text.CharacterNames] {operand : Chain} {name : Name}
    (h : operand.build = .identifier name) :
    ∃ token, operand = .primary (.name token) ∧ name = Reading.nameOf token.val := by
  have hpath : operand.names?.isSome := by rw [← operand.build_isPath, h]; rfl
  obtain ⟨⟨first, rest⟩, hnames⟩ := Option.isSome_iff_exists.mp hpath
  obtain rfl := operand.eq_of_names? hnames
  rcases List.eq_nil_or_concat rest with rfl | ⟨front, last, rfl⟩
  · cases h
    exact ⟨first, rfl, rfl⟩
  · rw [Chain.build, Primary.build_ofNames, Names.build, List.concat_eq_append,
      pathExpr_append] at h
    cases h

/-! ## Derivations read so far -/

/-- A sum and the plus after it. -/
abbrev Left : Type :=
  Sum × Marked .plus

/-- The tokens of a sum and the plus after it. -/
def Left.tokens (left : Left) : List Token :=
  left.1.tokens ++ [left.2.val]

/-- A sum with one more operand. -/
def Sum.join : Option Left → Chain → Sum
  | none, operand => .chain operand
  | some (left, op), operand => .plus left op operand

/-- A declarator with the label that has been read for it. -/
def Declarator.labelled : Option (Ident × Marked .equal) → Sum → Declarator
  | none, value => .implicit value
  | some (name, op), value => .named name op value

/-- Arguments with others in front. -/
def Arguments.after (last : Arguments) : List (Sum × Marked .comma) → Arguments
  | [] => last
  | (value, comma) :: rest => .more value comma (last.after rest)

/-- Initializers with others in front. -/
def Initializers.after (last : Initializers) : List (Declarator × Marked .comma) → Initializers
  | [] => last
  | (init, comma) :: rest => .more init comma (last.after rest)

/-- Initializers with a comma after the last. -/
def Initializers.trailed (init : Declarator) (comma : Marked .comma) :
    List (Declarator × Marked .comma) → Initializers
  | [] => .trailing init comma
  | (next, comma') :: rest => .more init comma (trailed next comma' rest)

/-- A creation whose last initializer, if there is one, has a comma after it. -/
def Primary.trailed (new : Word .new) (opening : Marked .openBrace) (closing : Marked .closeBrace) :
    List (Declarator × Marked .comma) → Primary
  | [] => .emptyCreation new opening closing
  | (init, comma) :: rest => .creation new opening (.trailed init comma rest) closing

/-- A bracket that is open, with the sum in front of it and the items already complete. -/
inductive Bracket where
  | paren (left : Option Left) (opening : Marked .openParen)
  | arguments (left : Option Left) (callee : Chain) (opening : Marked .openParen)
      (before : List (Sum × Marked .comma))
  | initializers (left : Option Left) (new : Word .new) (opening : Marked .openBrace)
      (before : List (Declarator × Marked .comma)) (label : Option (Ident × Marked .equal))

/-- The place reached. Before a first argument and before an initializer the bracket may still be
closed at once, so it counts as part of the place. -/
inductive Place where
  | operand
  | firstArgument (callee : Chain) (opening : Marked .openParen)
  | initializer (new : Word .new) (opening : Marked .openBrace)
      (before : List (Declarator × Marked .comma))
  | new (word : Word .new)
  | dot (target : Chain) (op : Marked .dot)
  | questionDot (target : Chain) (op : Marked .questionDot)
  | colons (names : Names) (op : Marked .colons)
  | complete (operand : Chain)

/-- A derivation of which some tokens have been read: the open brackets, the innermost first, the
sum so far in front of the current operand, and the place reached. -/
structure OpenSum where
  brackets : List Bracket
  left : Option Left
  place : Place

namespace OpenSum

/-- Before the first token. -/
def start : OpenSum :=
  ⟨[], none, .operand⟩

/-- After a complete operand. -/
def reach (q : OpenSum) (operand : Chain) : OpenSum :=
  ⟨q.brackets, q.left, .complete operand⟩

/-- The first token of an operand. -/
def openOperand (q : OpenSum) (t : Token) : Option OpenSum :=
  match h : t.kind with
  | .name => some (q.reach (.primary (.name ⟨t, h⟩)))
  | .integer => some (q.reach (.primary (.integer ⟨t, h⟩)))
  | .string => some (q.reach (.primary (.string ⟨t, h⟩)))
  | .keyword .true => some (q.reach (.primary (.trueWord ⟨t, h⟩)))
  | .keyword .false => some (q.reach (.primary (.falseWord ⟨t, h⟩)))
  | .keyword .null => some (q.reach (.primary (.nullWord ⟨t, h⟩)))
  | .keyword .new => some ⟨q.brackets, q.left, .new ⟨t, h⟩⟩
  | .mark .openParen => some ⟨.paren q.left ⟨t, h⟩ :: q.brackets, none, .operand⟩
  | _ => none

/-- Where an operand starts: inside the bracket that is part of the place, if there is one. -/
def inside (q : OpenSum) : OpenSum :=
  match q.place with
  | .firstArgument callee opening =>
    ⟨.arguments q.left callee opening [] :: q.brackets, none, .operand⟩
  | .initializer new opening before =>
    ⟨.initializers q.left new opening before none :: q.brackets, none, .operand⟩
  | place => ⟨q.brackets, q.left, place⟩

/-- A token after a complete operand. -/
def afterOperand (q : OpenSum) (operand : Chain) (m : Mark) (t : Marked m) : Option OpenSum :=
  match m, t, q.brackets with
  | .plus, op, _ => some ⟨q.brackets, some (.join q.left operand, op), .operand⟩
  | .dot, op, _ => some ⟨q.brackets, q.left, .dot operand op⟩
  | .questionDot, op, _ => some ⟨q.brackets, q.left, .questionDot operand op⟩
  | .colons, op, _ => operand.names?.map fun names => ⟨q.brackets, q.left, .colons names op⟩
  | .openParen, opening, _ => some ⟨q.brackets, q.left, .firstArgument operand opening⟩
  | .equal, op, .initializers left new opening before none :: outer =>
    match q.left, operand with
    | none, .primary (.name name) =>
      some ⟨.initializers left new opening before (some (name, op)) :: outer, none, .operand⟩
    | _, _ => none
  | .closeParen, closing, .paren left opening :: outer =>
    some ⟨outer, left, .complete (.primary (.paren opening (.join q.left operand) closing))⟩
  | .closeParen, closing, .arguments left callee opening before :: outer =>
    let arguments := (Arguments.last (.join q.left operand)).after before
    some ⟨outer, left, .complete (.callWith callee opening arguments closing)⟩
  | .comma, comma, .arguments left callee opening before :: outer =>
    some ⟨.arguments left callee opening (before ++ [(.join q.left operand, comma)]) :: outer, none,
      .operand⟩
  | .comma, comma, .initializers left new opening before label :: outer =>
    some ⟨outer, left, .initializer new opening
      (before ++ [(.labelled label (.join q.left operand), comma)])⟩
  | .closeBrace, closing, .initializers left new opening before label :: outer =>
    let initializers := (Initializers.last (.labelled label (.join q.left operand))).after before
    some ⟨outer, left, .complete (.primary (.creation new opening initializers closing))⟩
  | _, _, _ => none

/-- The derivation with one more token, unless none has that token here. -/
def shift (q : OpenSum) (t : Token) : Option OpenSum :=
  match q.place with
  | .operand => q.openOperand t
  | .firstArgument callee opening =>
    match h : t.kind with
    | .mark .closeParen => some (q.reach (.call callee opening ⟨t, h⟩))
    | _ => q.inside.openOperand t
  | .initializer new opening before =>
    match h : t.kind with
    | .mark .closeBrace => some (q.reach (.primary (.trailed new opening ⟨t, h⟩ before)))
    | _ => q.inside.openOperand t
  | .new word =>
    match h : t.kind with
    | .mark .openBrace => some ⟨q.brackets, q.left, .initializer word ⟨t, h⟩ []⟩
    | _ => none
  | .dot target op =>
    match h : t.kind with
    | .name => some (q.reach (.member target op ⟨t, h⟩))
    | _ => none
  | .questionDot target op =>
    match h : t.kind with
    | .name => some (q.reach (.conditional target op ⟨t, h⟩))
    | _ => none
  | .colons names op =>
    match h : t.kind with
    | .name => some (q.reach (.primary (.ofNames (names.1, names.2 ++ [(op, ⟨t, h⟩)]))))
    | _ => none
  | .complete operand =>
    match h : t.kind with
    | .mark m => q.afterOperand operand m ⟨t, h⟩
    | _ => none

/-- The derivation read, if it can end here. -/
def value? (q : OpenSum) : Option Sum :=
  match q.brackets, q.place with
  | [], .complete operand => some (.join q.left operand)
  | _, _ => none

end OpenSum

/-! ## What a derivation builds -/

variable [Text.CharacterNames]

/-- What a sum in front of an operand builds. -/
def Left.build (left : Left) : Expr :=
  left.1.build

/-- What the label of a declarator builds. -/
def labelOf (label : Option (Ident × Marked .equal)) : Option Name :=
  label.map fun l => Reading.nameOf l.1.val

/-- The frame that a bracket builds. -/
def Bracket.build : Bracket → Reading.Frame
  | .paren left opening => .paren (left.map Left.build) opening.val.position
  | .arguments left callee _ before =>
    .argument (left.map Left.build) callee.build (before.map (·.1.build))
  | .initializers left new _ before label =>
    .initializer (left.map Left.build) new.val.position (before.map (·.1.build)) (labelOf label)

/-- The reading that a derivation builds. -/
def OpenSum.built (q : OpenSum) : Reading :=
  let frames := q.brackets.map Bracket.build
  let left := q.left.map Left.build
  match q.place with
  | .operand => ⟨frames, left, .operand⟩
  | .firstArgument callee _ => ⟨.argument left callee.build [] :: frames, none, .firstArgument⟩
  | .initializer new _ before =>
    ⟨.initializer left new.val.position (before.map (·.1.build)) none :: frames, none, .initializer⟩
  | .new word => ⟨frames, left, .new word.val.position⟩
  | .dot target _ => ⟨frames, left, .dot target.build⟩
  | .questionDot target _ => ⟨frames, left, .questionDot target.build⟩
  | .colons names _ => ⟨frames, left, .colons names.build⟩
  | .complete operand => ⟨frames, left, .complete operand.build⟩

/-- A sum of a left side and a last operand builds their sum. -/
theorem Sum.build_join (left : Option Left) (operand : Chain) :
    (Sum.join left operand).build = Reading.sum (left.map Left.build) operand.build := by
  cases left with
  | none => rfl
  | some left => simp [join, build, Reading.sum, Left.build, left.1.build_position]

/-- A value with a label, or without one, builds an initializer. -/
theorem Declarator.build_labelled (label : Option (Ident × Marked .equal)) (value : Sum) :
    (Declarator.labelled label value).build =
      Reading.initializerOf (labelOf label) value.build := by
  cases label with
  | none => simp [labelled, build, Reading.initializerOf, labelOf, value.build_position]
  | some label => rfl

/-- Arguments build what those before build and then what the last one builds. -/
theorem Arguments.build_after (last : Arguments) (before : List (Sum × Marked .comma)) :
    (last.after before).build = before.map (·.1.build) ++ last.build := by
  induction before with
  | nil => rfl
  | cons first before ih => simp [after, build, ih]

/-- Initializers build what those before build and then what the last one builds. -/
theorem Initializers.build_after (last : Initializers)
    (before : List (Declarator × Marked .comma)) :
    (last.after before).build = before.map (·.1.build) ++ last.build := by
  induction before with
  | nil => rfl
  | cons first before ih => simp [after, build, ih]

/-- Initializers with a comma at the end build what they build without it. -/
theorem Initializers.build_trailed (init : Declarator) (comma : Marked .comma)
    (before : List (Declarator × Marked .comma)) :
    (Initializers.trailed init comma before).build = init.build :: before.map (·.1.build) := by
  induction before generalizing init comma with
  | nil => rfl
  | cons first before ih => simp [trailed, build, ih]

/-- A creation with a comma at the end builds what it builds without it. -/
theorem Primary.build_trailed (new : Word .new) (opening : Marked .openBrace)
    (closing : Marked .closeBrace) (before : List (Declarator × Marked .comma)) :
    (Primary.trailed new opening closing before).build =
      Reading.creation new.val.position (before.map (·.1.build)) := by
  cases before with
  | nil => rfl
  | cons first before => simp [trailed, build, Initializers.build_trailed]

namespace OpenSum

variable {q q' : OpenSum} {t : Token} {operand : Chain}

/-- A name before `=` is the label of an initializer. -/
theorem built_label {first left : Option Left} {new : Word .new} {opening : Marked .openBrace}
    {before : List (Declarator × Marked .comma)} {outer : List Bracket} {place : Place}
    {op : Marked .equal} :
    let q : OpenSum := ⟨.initializers first new opening before none :: outer, left, place⟩
    (q.reach operand).built.afterOperand operand.build .equal =
      (q.afterOperand operand .equal op).map built := by
  intro q
  -- A token is all there is to a chain that builds an identifier, so both sides refuse the same
  -- chains.
  by_cases hname : ∃ token, operand = .primary (.name token)
  · obtain ⟨token, rfl⟩ := hname
    cases left <;> rfl
  · have hbuild : ∀ name, operand.build ≠ .identifier name := by
      intro name h
      obtain ⟨token, htoken, -⟩ := operand.build_identifier h
      exact hname ⟨token, htoken⟩
    have hafter : q.afterOperand operand .equal op = none := by
      simp only [q, afterOperand]
      split
      · next token => exact absurd ⟨token, rfl⟩ hname
      · rfl
    rw [hafter]
    simp only [q, reach, built, List.map_cons, Bracket.build, labelOf, Option.map_none,
      Reading.afterOperand]
    split
    · next name _ heq => exact absurd heq (hbuild name)
    · rfl

/-- A mark after an operand is read as it is derived. -/
theorem built_afterOperand (q : OpenSum) (operand : Chain) (m : Mark) (t : Marked m) :
    (q.reach operand).built.afterOperand operand.build m =
      (q.afterOperand operand m t).map built := by
  obtain ⟨brackets, left, place⟩ := q
  cases m with
  | plus =>
      simp [reach, built, Reading.afterOperand, afterOperand, Left.build, Sum.build_join]
  | colons =>
      -- Two colons may follow a chain of names only: what such a chain builds is a path and nothing
      -- else is.
      have hpath := operand.build_isPath
      cases hnames : operand.names? with
      | none =>
          rw [hnames] at hpath
          simp [Reading.afterOperand, afterOperand, hpath, hnames]
      | some names =>
          rw [hnames, operand.build_of_names? hnames] at hpath
          simp [reach, built, Reading.afterOperand, afterOperand, hpath, hnames,
            operand.build_of_names? hnames]
  | dot | questionDot | openParen => rfl
  | star | openBrace | semicolon | colon => rfl
  | equal =>
      cases brackets with
      | nil => rfl
      | cons bracket outer =>
          cases bracket with
          | paren | arguments => rfl
          | initializers first new opening before label =>
              cases label with
              | some label => rfl
              | none => exact built_label
  | closeParen =>
      cases brackets with
      | nil => rfl
      | cons bracket outer =>
          cases bracket with
          | paren first opening =>
              simp [reach, built, Reading.afterOperand, afterOperand, Bracket.build, Chain.build,
                Primary.build, Sum.build_join]
          | arguments first callee opening before =>
              simp [reach, built, Reading.afterOperand, afterOperand, Bracket.build, Chain.build,
                Arguments.build_after, Arguments.build, Sum.build_join]
          | initializers => rfl
  | comma =>
      cases brackets with
      | nil => rfl
      | cons bracket outer =>
          cases bracket with
          | paren => rfl
          | arguments first callee opening before =>
              simp [reach, built, Reading.afterOperand, afterOperand, Bracket.build, Sum.build_join]
          | initializers first new opening before label =>
              simp [reach, built, Reading.afterOperand, afterOperand, Bracket.build,
                Sum.build_join, Declarator.build_labelled]
  | closeBrace =>
      cases brackets with
      | nil => rfl
      | cons bracket outer =>
          cases bracket with
          | paren | arguments => rfl
          | initializers first new opening before label =>
              simp [reach, built, Reading.afterOperand, afterOperand, Bracket.build, Chain.build,
                Primary.build, Initializers.build_after, Initializers.build, Sum.build_join,
                Declarator.build_labelled]

/-- What a derivation builds shifts as the derivation does. -/
theorem built_shift (q : OpenSum) (t : Token) : q.built.shift t = (q.shift t).map built := by
  obtain ⟨brackets, left, place⟩ := q
  obtain ⟨kind, text, position⟩ := t
  cases place with
  | operand | firstArgument =>
      cases kind with
      | name | integer | string => rfl
      | keyword k => cases k <;> rfl
      | mark m => cases m <;> rfl
  | initializer new opening before =>
      cases kind with
      | name | integer | string => rfl
      | keyword k => cases k <;> rfl
      | mark m =>
          cases m with
          | closeBrace =>
              simp [built, Reading.shift, shift, reach, Chain.build, Primary.build_trailed]
          | _ => rfl
  | new =>
      cases kind with
      | name | integer | string | keyword => rfl
      | mark m => cases m <;> rfl
  | dot | questionDot => cases kind <;> rfl
  | colons names op =>
      cases kind with
      | name =>
          -- A longer path begins where the shorter one did.
          have hposition := names.build_position
          simp only [Names.build] at hposition
          simp [built, Reading.shift, shift, reach, Chain.build, Primary.build_ofNames, Names.build,
            pathExpr_append, hposition]
      | integer | string | keyword | mark => rfl
  | complete operand =>
      cases kind with
      | name | integer | string | keyword => rfl
      | mark m => exact built_afterOperand ⟨brackets, left, .complete operand⟩ operand m ⟨_, rfl⟩

/-- What a derivation builds has the value that the derivation builds. -/
theorem built_value? (q : OpenSum) : q.built.value? = q.value?.map Sum.build := by
  obtain ⟨brackets, left, place⟩ := q
  cases place with
  | complete operand => cases brackets <;> simp [built, Reading.value?, value?, Sum.build_join]
  | _ => cases brackets <;> rfl

end OpenSum

end AnonymousObjects.Syntax.Grammar
