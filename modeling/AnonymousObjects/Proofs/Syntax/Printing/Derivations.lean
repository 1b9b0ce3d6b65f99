import AnonymousObjects.Proofs.Syntax.Grammar.Trimming
import AnonymousObjects.Proofs.Syntax.Printing.Rows
import AnonymousObjects.Proofs.Syntax.Readings

/-!
# The text of a derivation

An expression is printed as the tokens of its derivation, in order, without trailing commas and with
literals spelled anew (`Sum.toText_build`); and its literals are those of the tokens
(`Sum.literals_build`).
-/

namespace AnonymousObjects.Syntax

/-! ## Literals of an expression -/

namespace Expr

mutual

/-- The literals in an expression. -/
def literals : Expr → List Literal
  | identifier _ | memberBinding _ _ | error _ _ => []
  | memberAccess _ target _ => literals target
  | qualifiedName _ left _ => literals left
  | conditionalAccess _ target access => literals target ++ literals access
  | invocation _ callee arguments => literals callee ++ literalsOf arguments
  | literal _ value => [value]
  | binary _ _ left right => literals left ++ literals right
  | parenthesized _ inner => literals inner
  | creation _ _ initializers => literalsOfInitializers initializers

/-- The literals in several expressions. -/
def literalsOf : List Expr → List Literal
  | [] => []
  | e :: es => literals e ++ literalsOf es

/-- The literals in several initializers. -/
def literalsOfInitializers : List (Initializer Expr) → List Literal
  | [] => []
  | ⟨_, _, value⟩ :: rest => literals value ++ literalsOfInitializers rest

end

/-- A postfix operation adds its own literals after those of its target. -/
theorem literals_extend {operation : Expr → Expr} (more : List Literal)
    (h : ∀ e : Expr, (operation e).literals = e.literals ++ more) (e : Expr) :
    (e.extend operation).literals = e.literals ++ more := by
  fun_induction extend operation e with
  | case1 p target access ih => rw [literals, ih, literals, List.append_assoc]
  | case2 e _ => exact h e

/-- A postfix operation is written after its target. -/
theorem toText_extend {operation : Expr → Expr} {more : Text}
    (h : ∀ e : Expr, (operation e).toText = e.toText ++ more) (e : Expr) :
    (e.extend operation).toText = e.toText ++ more := by
  fun_induction extend operation e with
  | case1 p target access ih => simp only [toText, ih, List.append_assoc]
  | case2 e _ => exact h e

end Expr

/-! ## Paths and postfix operations -/

namespace Grammar

/-- A conditional access is printed with the mark split between its two parts. -/
theorem toText_conditional (target : Expr) (name : Name) :
    (target.extend (Reading.conditional name)).toText =
      target.toText ++ (Text.ofString "?" ++ Text.ofString ("." ++ name.text)) :=
  Expr.toText_extend (fun e => by simp [Reading.conditional, Expr.toText]) target

/-- A call is printed with its arguments in parentheses. -/
theorem toText_call (callee : Expr) (arguments : List Expr) :
    (callee.extend (Reading.call arguments)).toText =
      callee.toText ++ (Text.ofString "(" ++
        (Text.joinWith (Text.ofString ", ") (Expr.toTexts arguments) ++ Text.ofString ")")) :=
  Expr.toText_extend (fun e => by simp [Reading.call, Expr.toText]) callee

/-- A separator stands behind the first of several texts. -/
theorem joinWith_cons (separator t : Text) {ts : List Text} (h : ts ≠ []) :
    Text.joinWith separator (t :: ts) = t ++ separator ++ Text.joinWith separator ts := by
  cases ts with
  | nil => exact absurd rfl h
  | cons u ts => rfl

/-- A path holds no literals but those of its start. -/
theorem literals_path (start : Position) (path : Expr) (rest : List (Marked .colons × Ident)) :
    (pathExpr start path rest).literals = path.literals := by
  induction rest generalizing path with
  | nil => rfl
  | cons more rest ih => exact ih _

/-- A member access holds the literals of its target. -/
theorem literals_access (target : Expr) (name : Name) :
    (target.extend (Reading.access name)).literals = target.literals := by
  rw [Expr.literals_extend [] (fun e => by simp [Reading.access, Expr.literals]), List.append_nil]

/-- A conditional access holds the literals of its target. -/
theorem literals_conditional (target : Expr) (name : Name) :
    (target.extend (Reading.conditional name)).literals = target.literals := by
  rw [Expr.literals_extend [] (fun e => by simp [Reading.conditional, Expr.literals]),
    List.append_nil]

/-- A call holds the literals of its callee and then those of its arguments. -/
theorem literals_call (callee : Expr) (arguments : List Expr) :
    (callee.extend (Reading.call arguments)).literals =
      callee.literals ++ Expr.literalsOf arguments :=
  Expr.literals_extend _ (fun e => by simp [Reading.call, Expr.literals]) callee

end Grammar

/-! ## How tokens are printed -/

/-- The characters of a text, without its surrogates. -/
def charsOf (t : Text) : List Char :=
  t.filterMap CodePoint.toChar?

/-- A code point that is no surrogate is that of a character. -/
theorem exists_ofChar {p : CodePoint} (h : ¬ p.IsSurrogate) : ∃ c, CodePoint.ofChar c = p := by
  have hvalid : p.val.isValidChar := by
    have := p.isLt
    simp only [CodePoint.IsSurrogate] at h
    simp only [Nat.isValidChar]
    omega
  exact ⟨Char.ofNatAux p.val hvalid, Fin.ext rfl⟩

/-- A text without surrogates is that of characters. -/
theorem charsOf_map {t : Text} (h : ∀ p ∈ t, ¬ p.IsSurrogate) :
    (charsOf t).map CodePoint.ofChar = t := by
  induction t with
  | nil => rfl
  | cons p t ih =>
    obtain ⟨c, rfl⟩ := exists_ofChar (h p (by simp))
    have ht := ih fun q hq => h q (by simp [hq])
    simp only [charsOf] at ht ⊢
    simp [CodePoint.toChar?_ofChar, ht]

variable [Text.CharacterNames]

/-- How a token is spelled in a printed expression. -/
def Token.spelling (t : Token) : String :=
  match t.kind with
  | .name => t.text
  | .integer => toString (Text.Decimal.ofText t.text)
  | .string =>
    String.ofList ('"' :: (Text.Escape.guardedChars (charsOf (Grammar.stringValue t)) ++ ['"']))
  | .keyword k => k.text
  | .mark m => m.text

/-- A token as it is printed. -/
def Token.printed (t : Token) : Token :=
  ⟨t.kind, t.spelling, t.position⟩

/-- A string token that denotes characters only. -/
def Token.Plain (t : Token) : Prop :=
  t.kind = .string → ∀ p ∈ Grammar.stringValue t, ¬ p.IsSurrogate

/-- The text of a row of tokens in a printed expression. -/
def rowText (ts : List Token) : Text :=
  (ts.flatMap fun t => t.printed.written).map CodePoint.ofChar

/-- No tokens, no text. -/
@[simp] theorem rowText_nil : rowText [] = [] :=
  rfl

/-- The text of two rows is that of the one and then that of the other. -/
@[simp] theorem rowText_append (ts us : List Token) :
    rowText (ts ++ us) = rowText ts ++ rowText us := by
  simp [rowText]

/-- The text of a row starts with that of its first token. -/
theorem rowText_cons (t : Token) (ts : List Token) :
    rowText (t :: ts) = rowText [t] ++ rowText ts :=
  rowText_append [t] ts

namespace Grammar

/-- A mark with its blanks. -/
def markText : Mark → String
  | .plus => " + "
  | .star => "*"
  | .openBrace => "\x7b "
  | .closeBrace => " \x7d"
  | .openParen => "("
  | .closeParen => ")"
  | .comma => ", "
  | .semicolon => ";"
  | .colon => ":"
  | .colons => "::"
  | .dot => "."
  | .questionDot => "?."
  | .equal => " = "

/-- A mark is printed as it is spelled. -/
@[simp] theorem rowText_mark : ∀ {m : Mark} (t : Marked m),
    rowText [t.val] = Text.ofString (markText m)
  | m, ⟨⟨_, _, _⟩, rfl⟩ => by
      cases m <;>
        simp [rowText, Token.printed, Token.spelling, Token.written, TokenKind.blankBefore,
          TokenKind.blankAfter, Mark.text, markText, Text.ofString]

/-- A name is printed as it is spelled. -/
@[simp] theorem rowText_name : ∀ t : Ident, rowText [t.val] = Text.ofString t.val.text
  | ⟨⟨_, _, _⟩, rfl⟩ => by
      simp [rowText, Token.printed, Token.spelling, Token.written, TokenKind.blankBefore,
        TokenKind.blankAfter, Text.ofString]

/-- Only `new` has a blank after it. -/
def wordText : Keyword → String
  | .new => "new "
  | k => k.text

/-- A word is printed as it is spelled. -/
@[simp] theorem rowText_word : ∀ {k : Keyword} (t : Word k),
    rowText [t.val] = Text.ofString (wordText k)
  | k, ⟨⟨_, _, _⟩, rfl⟩ => by
      cases k <;>
        simp [rowText, Token.printed, Token.spelling, Token.written, TokenKind.blankBefore,
          TokenKind.blankAfter, Keyword.text, wordText, Text.ofString]

/-- A path is printed as its start and then its marks and names. -/
theorem toText_path (start : Position) (path : Expr) (rest : List (Marked .colons × Ident)) :
    (pathExpr start path rest).toText =
      path.toText ++ rowText (rest.flatMap fun more => [more.1.val, more.2.val]) := by
  induction rest generalizing path with
  | nil => simp [pathExpr]
  | cons more rest ih =>
    rw [pathExpr, ih, List.flatMap_cons, rowText_append, rowText_cons]
    simp [Expr.toText, Reading.nameOf, markText]

/-- An integer is printed as its number. -/
@[simp] theorem rowText_integer : ∀ t : Terminal .integer,
    rowText [t.val] = Text.ofString (toString (Text.Decimal.ofText t.val.text))
  | ⟨⟨_, _, _⟩, rfl⟩ => by
      simp [rowText, Token.printed, Token.spelling, Token.written, TokenKind.blankBefore,
        TokenKind.blankAfter, Text.ofString]

/-- A string is printed as its value, guarded. -/
theorem rowText_string : ∀ t : Terminal .string, t.val.Plain →
    rowText [t.val] =
      CodePoint.ofChar '"' :: guarded (stringValue t.val) ++ [CodePoint.ofChar '"']
  | ⟨⟨_, text, position⟩, rfl⟩, h => by
      have hguarded := Text.Escape.guarded_map (charsOf (stringValue ⟨.string, text, position⟩))
      rw [charsOf_map (h rfl)] at hguarded
      simp [rowText, Token.printed, Token.spelling, Token.written, TokenKind.blankBefore,
        TokenKind.blankAfter, hguarded]

/-- Arguments are printed as at least one text. -/
theorem toTexts_build_ne (arguments : Arguments) : Expr.toTexts arguments.build ≠ [] := by
  cases arguments <;> simp [Arguments.build, Expr.toTexts]

/-- Initializers are printed as at least one text. -/
theorem initializersToTexts_build_ne (initializers : Initializers) :
    Expr.initializersToTexts initializers.build ≠ [] := by
  cases initializers <;> simp [Initializers.build, Expr.initializersToTexts]

mutual

/-- A sum is printed as its tokens are, without trailing commas. -/
theorem Sum.toText_build : ∀ s : Sum, (∀ t ∈ s.tokens, t.Plain) →
    s.build.toText = rowText s.trim.tokens
  | .chain operand, h => operand.toText_build h
  | .plus left op right, h => by
      rw [Sum.build, Expr.toText, left.toText_build fun t ht => h t (by simp [Sum.tokens, ht]),
        right.toText_build fun t ht => h t (by simp [Sum.tokens, ht]), Sum.trim, Sum.tokens,
        rowText_append, rowText_cons, rowText_mark, List.append_assoc]
      rfl

/-- A chain is printed as its tokens without commas at ends. -/
theorem Chain.toText_build : ∀ operand : Chain, (∀ t ∈ operand.tokens, t.Plain) →
    operand.build.toText = rowText operand.trim.tokens
  | .primary head, h => head.toText_build h
  | .member target op name, h => by
      rw [Chain.build, Expr.toText_extend fun _ => rfl,
        target.toText_build fun t ht => h t (by simp [Chain.tokens, ht]), Chain.trim, Chain.tokens,
        rowText_append, rowText_cons, rowText_mark, rowText_name]
      simp [Reading.nameOf, markText]
  | .conditional target op name, h => by
      rw [Chain.build, toText_conditional,
        target.toText_build fun t ht => h t (by simp [Chain.tokens, ht]), Chain.trim, Chain.tokens,
        rowText_append, rowText_cons, rowText_mark, rowText_name]
      simp [markText, Text.ofString, Reading.nameOf]
  | .call callee opening closing, h => by
      rw [Chain.build, toText_call,
        callee.toText_build fun t ht => h t (by simp [Chain.tokens, ht]), Chain.trim, Chain.tokens,
        rowText_append, rowText_cons, rowText_mark, rowText_mark]
      simp [markText, Expr.toTexts, Text.joinWith]
  | .callWith callee opening arguments closing, h => by
      rw [Chain.build, toText_call,
        callee.toText_build fun t ht => h t (by simp [Chain.tokens, ht]),
        arguments.toText_build fun t ht => h t (by simp [Chain.tokens, ht]), Chain.trim,
        Chain.tokens, rowText_append, rowText_cons, rowText_append, rowText_mark, rowText_mark]
      simp [markText]

/-- Arguments are printed as their tokens, with commas between them. -/
theorem Arguments.toText_build : ∀ arguments : Arguments, (∀ t ∈ arguments.tokens, t.Plain) →
    Text.joinWith (Text.ofString ", ") (Expr.toTexts arguments.build) =
      rowText arguments.trim.tokens
  | .last value, h => by
      rw [Arguments.build, Expr.toTexts, Expr.toTexts, Text.joinWith, value.toText_build h]
      rfl
  | .more value comma rest, h => by
      rw [Arguments.build, Expr.toTexts, joinWith_cons _ _ (toTexts_build_ne rest),
        value.toText_build fun t ht => h t (by simp [Arguments.tokens, ht]),
        rest.toText_build fun t ht => h t (by simp [Arguments.tokens, ht]), Arguments.trim,
        Arguments.tokens, rowText_append, rowText_cons, rowText_mark, List.append_assoc]
      rfl

/-- A primary is printed as its tokens without commas at ends. -/
theorem Primary.toText_build : ∀ head : Primary, (∀ t ∈ head.tokens, t.Plain) →
    head.build.toText = rowText head.trim.tokens
  | .name token, _ => (rowText_name token).symm
  | .qualifiedName first op second rest, _ => by
      rw [Primary.build, toText_path, Primary.trim, Primary.tokens, rowText_cons, rowText_name]
      rfl
  | .integer token, _ => (rowText_integer token).symm
  | .string token, h => (rowText_string token (h _ (by simp [Primary.tokens]))).symm
  | .trueWord token, _ => (rowText_word token).symm
  | .falseWord token, _ => (rowText_word token).symm
  | .nullWord token, _ => (rowText_word token).symm
  | .paren opening inner closing, h => by
      rw [Primary.build, Expr.toText,
        inner.toText_build fun t ht => h t (by simp [Primary.tokens, ht]), Primary.trim,
        Primary.tokens, rowText_cons, rowText_append, rowText_mark, rowText_mark]
      simp [markText]
  | .emptyCreation new opening closing, _ => by
      rw [Primary.build, Reading.creation, Expr.toText, Primary.trim, Primary.tokens, rowText_cons,
        rowText_cons opening.val, rowText_word, rowText_mark, rowText_mark]
      simp [markText, wordText, Expr.initializersToTexts, Text.joinWith, Text.ofString]
  | .creation new opening initializers closing, h => by
      rw [Primary.build, Reading.creation, Expr.toText,
        initializers.toText_build fun t ht => h t (by simp [Primary.tokens, ht]), Primary.trim,
        Primary.tokens, rowText_cons, rowText_cons opening.val, rowText_append, rowText_word,
        rowText_mark, rowText_mark]
      simp [markText, wordText, Text.ofString]

/-- Initializers are printed as their tokens without a comma at the end. -/
theorem Initializers.toText_build : ∀ initializers : Initializers,
    (∀ t ∈ initializers.tokens, t.Plain) →
      Text.joinWith (Text.ofString ", ") (Expr.initializersToTexts initializers.build) =
        rowText initializers.trim.tokens
  | .last init, h => by
      rw [Initializers.build, Expr.initializersToTexts, Expr.initializersToTexts, Text.joinWith,
        init.toText_build h]
      rfl
  | .trailing init comma, h => by
      rw [Initializers.build, Expr.initializersToTexts, Expr.initializersToTexts, Text.joinWith,
        init.toText_build fun t ht => h t (by simp [Initializers.tokens, ht])]
      rfl
  | .more init comma rest, h => by
      rw [Initializers.build, Expr.initializersToTexts,
        joinWith_cons _ _ (initializersToTexts_build_ne rest),
        init.toText_build fun t ht => h t (by simp [Initializers.tokens, ht]),
        rest.toText_build fun t ht => h t (by simp [Initializers.tokens, ht]), Initializers.trim,
        Initializers.tokens, rowText_append, rowText_cons, rowText_mark, List.append_assoc]
      rfl

/-- A declarator is printed as its tokens without commas at ends. -/
theorem Declarator.toText_build : ∀ init : Declarator, (∀ t ∈ init.tokens, t.Plain) →
    labelText init.build.label ++ init.build.value.toText = rowText init.trim.tokens
  | .named name op value, h => by
      rw [Declarator.build, labelText,
        value.toText_build fun t ht => h t (by simp [Declarator.tokens, ht]), Declarator.trim,
        Declarator.tokens, rowText_cons, rowText_cons op.val, rowText_mark, rowText_name]
      simp [markText, Reading.nameOf]
  | .implicit value, h => value.toText_build h

end

/-! ## The literals of a derivation -/

/-- No mark is a literal. -/
@[simp] theorem literal?_mark : ∀ {m : Mark} (t : Marked m), t.val.literal? = none
  | _, ⟨⟨_, _, _⟩, rfl⟩ => rfl

/-- No name is a literal. -/
@[simp] theorem literal?_name : ∀ t : Ident, t.val.literal? = none
  | ⟨⟨_, _, _⟩, rfl⟩ => rfl

/-- The word `new` is no literal. -/
@[simp] theorem literal?_new : ∀ t : Word .new, t.val.literal? = none
  | ⟨⟨_, _, _⟩, rfl⟩ => rfl

/-- There are no literals in a path. -/
theorem literals_names (rest : List (Marked .colons × Ident)) :
    (rest.flatMap fun more => [more.1.val, more.2.val]).filterMap Token.literal? = [] := by
  induction rest with
  | nil => rfl
  | cons more rest ih => simp [ih]

mutual

/-- The literals of a sum are those of its tokens, in order. -/
theorem Sum.literals_build : ∀ s : Sum, s.build.literals = s.tokens.filterMap Token.literal?
  | .chain operand => operand.literals_build
  | .plus left op right => by
      rw [Sum.build, Expr.literals, left.literals_build, right.literals_build, Sum.tokens,
        List.filterMap_append]
      simp

/-- The literals of a chain are those of its tokens. -/
theorem Chain.literals_build : ∀ operand : Chain,
    operand.build.literals = operand.tokens.filterMap Token.literal?
  | .primary head => head.literals_build
  | .member target op name => by
      simp [Chain.build, literals_access, target.literals_build, Chain.tokens]
  | .conditional target op name => by
      simp [Chain.build, literals_conditional, target.literals_build, Chain.tokens]
  | .call callee opening closing => by
      simp [Chain.build, literals_call, callee.literals_build, Chain.tokens, Expr.literalsOf]
  | .callWith callee opening arguments closing => by
      simp [Chain.build, literals_call, callee.literals_build, arguments.literals_build,
        Chain.tokens]

/-- The literals of arguments are those of their tokens. -/
theorem Arguments.literals_build : ∀ arguments : Arguments,
    Expr.literalsOf arguments.build = arguments.tokens.filterMap Token.literal?
  | .last value => by
      simp [Arguments.build, Expr.literalsOf, Arguments.tokens, value.literals_build]
  | .more value comma rest => by
      simp [Arguments.build, Expr.literalsOf, Arguments.tokens, value.literals_build,
        rest.literals_build]

/-- The literals of a primary are those of its tokens. -/
theorem Primary.literals_build : ∀ head : Primary,
    head.build.literals = head.tokens.filterMap Token.literal?
  | .name token => by simp [Primary.build, Expr.literals, Primary.tokens]
  | .qualifiedName first op second rest => by
      simp [Primary.build, literals_path, Expr.literals, Primary.tokens, literals_names]
  | .integer ⟨⟨_, _, _⟩, rfl⟩ => rfl
  | .string ⟨⟨_, _, _⟩, rfl⟩ => rfl
  | .trueWord ⟨⟨_, _, _⟩, rfl⟩ => rfl
  | .falseWord ⟨⟨_, _, _⟩, rfl⟩ => rfl
  | .nullWord ⟨⟨_, _, _⟩, rfl⟩ => rfl
  | .paren opening inner closing => by
      simp [Primary.build, Expr.literals, Primary.tokens, inner.literals_build]
  | .emptyCreation new opening closing => by
      simp [Primary.build, Reading.creation, Expr.literals, Expr.literalsOfInitializers,
        Primary.tokens]
  | .creation new opening initializers closing => by
      simp [Primary.build, Reading.creation, Expr.literals, Primary.tokens,
        initializers.literals_build]

/-- The literals of initializers are those of their tokens. -/
theorem Initializers.literals_build : ∀ initializers : Initializers,
    Expr.literalsOfInitializers initializers.build =
      initializers.tokens.filterMap Token.literal?
  | .last init => by
      simp [Initializers.build, Expr.literalsOfInitializers, Initializers.tokens,
        init.literals_build]
  | .trailing init comma => by
      simp [Initializers.build, Expr.literalsOfInitializers, Initializers.tokens,
        init.literals_build]
  | .more init comma rest => by
      simp [Initializers.build, Expr.literalsOfInitializers, Initializers.tokens,
        init.literals_build, rest.literals_build]

/-- The literals of a declarator are those of its tokens. -/
theorem Declarator.literals_build : ∀ init : Declarator,
    init.build.value.literals = init.tokens.filterMap Token.literal?
  | .named name op value => by
      simp [Declarator.build, Declarator.tokens, value.literals_build]
  | .implicit value => value.literals_build

end

end Grammar

end AnonymousObjects.Syntax
