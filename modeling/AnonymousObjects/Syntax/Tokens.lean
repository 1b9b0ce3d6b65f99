import AnonymousObjects.Syntax.Token

/-!
# The tokens of a source text

`Tokens.ofText` reads a text character by character. A `Scan` is what the characters read last have
begun; `Scan.step` moves past one character and may complete tokens. Names, numbers and marks are as
long as possible. Reading stops at the first character where no token of the vocabulary starts,
which includes a quotation mark whose string never ends.
-/

namespace AnonymousObjects.Syntax

/-- Blanks separate tokens. -/
def isBlank (c : Char) : Bool :=
  c == ' ' || c == '\t' || c == '\x0c' || c == '\r' || c == '\n'

/-- The characters with which names and keywords start: ASCII letters and the underscore. -/
def startsWord (c : Char) : Bool :=
  c.isAlpha || c == '_'

/-- The characters that continue a name. -/
def inWord (c : Char) : Bool :=
  c.isAlphanum || c == '_'

/-- A text that is a name or a keyword. -/
def isWord : List Char → Bool
  | [] => false
  | c :: cs => startsWord c && cs.all inWord

/-- The mark of a single character that starts no longer token. -/
def mark? : Char → Option Mark
  | '+' => some .plus
  | '*' => some .star
  | '\x7b' => some .openBrace
  | '\x7d' => some .closeBrace
  | '(' => some .openParen
  | ')' => some .closeParen
  | ',' => some .comma
  | ';' => some .semicolon
  | '.' => some .dot
  | '=' => some .equal
  | _ => none

/-- What has been begun: nothing, a token with its start and its characters so far in reverse, a
comment, or a character that needs another. -/
inductive Scan where
  | between
  | word (start : Position) (reversed : List Char)
  | number (start : Position) (reversed : List Char)
  | string (start : Position) (reversed : List Char) (afterBackslash : Bool)
  | comment
  | slash (start : Position)
  | colon (start : Position)
  | question (start : Position)
deriving DecidableEq, Repr

/-- The result of moving past a character: completed tokens and what is now begun, or the
character at which no token starts. -/
inductive Scan.Move where
  | on (completed : List Token) (scan : Scan)
  | stop (completed : List Token) (c : Char) (position : Position)
deriving DecidableEq, Repr

/-- A move that completes another token first. -/
def Scan.Move.completing (t : Token) : Scan.Move → Scan.Move
  | .on completed scan => .on (t :: completed) scan
  | .stop completed c position => .stop (t :: completed) c position

namespace Scan

/-- The move past a character that follows a complete token or a blank. -/
def begin (v : Vocabulary) (p : Position) (c : Char) : Move :=
  if isBlank c then .on [] .between
  else if startsWord c then .on [] (.word p [c])
  else if c.isDigit then .on [] (.number p [c])
  else if c = '"' then .on [] (.string p [c] false)
  else if c = '/' then .on [] (.slash p)
  else if c = ':' then .on [] (.colon p)
  else if c = '?' then .on [] (.question p)
  else
    match mark? c with
    | some m => if v.hasMark m then .on [.ofMark m p] .between else .stop [] c p
    | none => .stop [] c p

/-- The token of a number or a string, from its characters in reverse. -/
def token (kind : TokenKind) (start : Position) (reversed : List Char) : Token :=
  ⟨kind, String.ofList reversed.reverse, start⟩

/-- The token of a name or keyword, from its characters in reverse. -/
def wordToken (v : Vocabulary) (start : Position) (reversed : List Char) : Token :=
  .ofWord v (String.ofList reversed.reverse) start

/-- The move past a character. In a string, a backslash joins the next character to it, unless
that is a line feed: then the string cannot end. -/
def step (v : Vocabulary) (p : Position) (c : Char) : Scan → Move
  | .between => begin v p c
  | .word start reversed =>
    if inWord c then .on [] (.word start (c :: reversed))
    else (begin v p c).completing (wordToken v start reversed)
  | .number start reversed =>
    if c.isDigit then .on [] (.number start (c :: reversed))
    else (begin v p c).completing (token .integer start reversed)
  | .string start reversed false =>
    if c = '"' then .on [token .string start (c :: reversed)] .between
    else .on [] (.string start (c :: reversed) (c = '\\'))
  | .string start reversed true =>
    if c = '\n' then .stop [] '"' start
    else .on [] (.string start (c :: reversed) false)
  | .comment => .on [] (if c = '\n' then .between else .comment)
  | .slash start => if c = '/' then .on [] .comment else .stop [] '/' start
  | .colon start =>
    if c = ':' then .on [.ofMark .colons start] .between
    else if v.hasMark .colon then (begin v p c).completing (.ofMark .colon start)
    else .stop [] ':' start
  | .question start =>
    if c = '.' then .on [.ofMark .questionDot start] .between else .stop [] '?' start

end Scan

/-- The tokens of a text up to its end, or up to a character at which no token starts. -/
structure Tokens where
  list : List Token
  unreadable : Option (Char × Position) := none
deriving DecidableEq, Repr

namespace Tokens

/-- The tokens with others in front. -/
def prepend (ts : List Token) (rest : Tokens) : Tokens :=
  ⟨ts ++ rest.list, rest.unreadable⟩

/-- What the end of the text makes of what was begun. -/
def atEnd (v : Vocabulary) : Scan → Tokens
  | .between | .comment => ⟨[], none⟩
  | .word start reversed => ⟨[Scan.wordToken v start reversed], none⟩
  | .number start reversed => ⟨[Scan.token .integer start reversed], none⟩
  | .string start _ _ => ⟨[], some ('"', start)⟩
  | .slash start => ⟨[], some ('/', start)⟩
  | .colon start =>
    if v.hasMark .colon then ⟨[.ofMark .colon start], none⟩ else ⟨[], some (':', start)⟩
  | .question start => ⟨[], some ('?', start)⟩

/-- The tokens of a text that stands at a position, after what has been begun before it. -/
def scanFrom (v : Vocabulary) (scan : Scan) (p : Position) : List Char → Tokens
  | [] => atEnd v scan
  | c :: cs =>
    match scan.step v p c with
    | .on completed next => prepend completed (scanFrom v next (p.next c) cs)
    | .stop completed bad place => ⟨completed, some (bad, place)⟩

/-- The tokens of a source text. -/
def ofText (v : Vocabulary) (cs : List Char) : Tokens :=
  scanFrom v .between .start cs

end Tokens

end AnonymousObjects.Syntax
