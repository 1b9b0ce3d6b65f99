import AnonymousObjects.Source.Position

/-!
# Tokens

A source text is a row of tokens with blanks and comments between them. A word is a keyword only as
a whole, so `newer` is a name and `new` is not. An expression by itself has fewer keywords and marks
than a program: there `class` is a name like any other, and no token starts with a star.
-/

namespace AnonymousObjects.Syntax

/-- The reserved words. -/
inductive Keyword where
  | classWord
  | struct
  | ref
  | static
  | let
  | fn
  | method
  | script
  | type
  | field
  | const
  | param
  | local
  | new
  | true
  | false
  | null
deriving DecidableEq, Repr

namespace Keyword

/-- Every keyword. -/
def all : List Keyword :=
  [.classWord, .struct, .ref, .static, .let, .fn, .method, .script, .type, .field, .const, .param,
    .local, .new, .true, .false, .null]

/-- How a keyword is written. -/
def text : Keyword → String
  | .classWord => "class"
  | .struct => "struct"
  | .ref => "ref"
  | .static => "static"
  | .let => "let"
  | .fn => "fn"
  | .method => "method"
  | .script => "script"
  | .type => "type"
  | .field => "field"
  | .const => "const"
  | .param => "param"
  | .local => "local"
  | .new => "new"
  | .true => "true"
  | .false => "false"
  | .null => "null"

end Keyword

/-- Punctuation marks and operators. -/
inductive Mark where
  | plus
  | star
  | openBrace
  | closeBrace
  | openParen
  | closeParen
  | comma
  | semicolon
  | colon
  | colons
  | dot
  | questionDot
  | equal
deriving DecidableEq, Repr

/-- How a mark is written. -/
def Mark.text : Mark → String
  | .plus => "+"
  | .star => "*"
  | .openBrace => "\x7b"
  | .closeBrace => "\x7d"
  | .openParen => "("
  | .closeParen => ")"
  | .comma => ","
  | .semicolon => ";"
  | .colon => ":"
  | .colons => "::"
  | .dot => "."
  | .questionDot => "?."
  | .equal => "="

/-- What a source text is to be: an expression by itself or a program. -/
inductive Vocabulary where
  | expression
  | program
deriving DecidableEq, Repr

namespace Vocabulary

/-- The keywords of a vocabulary. An expression by itself shares those of the statements in which
expressions stand. -/
def keywords : Vocabulary → List Keyword
  | expression => [.local, .new, .true, .false, .null]
  | program => Keyword.all

/-- Whether a vocabulary has a mark. Only types need a star or a colon, and an expression by itself
has no types. -/
def hasMark : Vocabulary → Mark → Bool
  | expression, .star | expression, .colon => false
  | _, _ => true

/-- The keyword that a word is. -/
def keyword? (v : Vocabulary) (word : String) : Option Keyword :=
  v.keywords.find? (·.text = word)

end Vocabulary

/-- The classes of tokens. -/
inductive TokenKind where
  | name
  | integer
  | string
  | keyword (k : Keyword)
  | mark (m : Mark)
deriving DecidableEq, Repr

/-- The name of a class in error messages. Keywords are named by their word in capitals; the two
operators of two characters have no names of their own and go by number. -/
def TokenKind.label : TokenKind → String
  | .name => "NAME"
  | .integer => "INT"
  | .string => "STRING"
  | .keyword k => k.text.toUpper
  | .mark .plus => "PLUS"
  | .mark .star => "STAR"
  | .mark .openBrace => "LBRACE"
  | .mark .closeBrace => "RBRACE"
  | .mark .openParen => "LPAR"
  | .mark .closeParen => "RPAR"
  | .mark .comma => "COMMA"
  | .mark .semicolon => "SEMICOLON"
  | .mark .colon => "COLON"
  | .mark .colons => "__ANON_1"
  | .mark .dot => "DOT"
  | .mark .questionDot => "__ANON_0"
  | .mark .equal => "EQUAL"

/-- A token: its class, its text as written, and where it starts. -/
structure Token where
  kind : TokenKind
  text : String
  position : Position
deriving DecidableEq, Repr

namespace Token

/-- The token of a word, which is a keyword or a name. -/
def ofWord (v : Vocabulary) (word : String) (position : Position) : Token :=
  match v.keyword? word with
  | some k => ⟨.keyword k, word, position⟩
  | none => ⟨.name, word, position⟩

/-- The token of a mark. -/
def ofMark (m : Mark) (position : Position) : Token :=
  ⟨.mark m, m.text, position⟩

end Token

end AnonymousObjects.Syntax
