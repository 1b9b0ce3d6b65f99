/-!
# Positions in a source text

A position is a line and a column, both counted from 1. Columns count characters, and only a line
feed starts a new line. Moving past two pieces of text is moving past one and then the other
(`after_append`).
-/

namespace AnonymousObjects

/-- A place in a source text. -/
structure Position where
  line : Nat
  column : Nat
deriving DecidableEq, Repr, Inhabited

namespace Position

/-- Where a source text starts. -/
def start : Position := ⟨1, 1⟩

/-- The position after one character. -/
def next (p : Position) (c : Char) : Position :=
  if c = '\n' then ⟨p.line + 1, 1⟩ else ⟨p.line, p.column + 1⟩

/-- The position after a piece of text. -/
def after (p : Position) (cs : List Char) : Position :=
  cs.foldl next p

/-- No characters, no movement. -/
@[simp] theorem after_nil (p : Position) : p.after [] = p := rfl

/-- A position moves character by character. -/
@[simp] theorem after_cons (p : Position) (c : Char) (cs : List Char) :
    p.after (c :: cs) = (p.next c).after cs := rfl

/-- A position moves over one text and then over the next. -/
theorem after_append (p : Position) (cs ds : List Char) :
    p.after (cs ++ ds) = (p.after cs).after ds := by
  simp [after, List.foldl_append]

end Position

end AnonymousObjects
