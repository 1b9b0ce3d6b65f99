import AnonymousObjects.Source.Position

/-!
# Spans

A span says where something is as well as is known: the file, the line and column of its start and
of its end, each of which may be missing. Spans are made from positions of the source text
(`Span.ofPosition`) or from what a host knows about a place (`Span.ofLocation`).
-/

namespace AnonymousObjects

/-- A stretch of source text, as far as it is known. The span without any part is the unknown
place. -/
structure Span where
  file : Option String := none
  line : Option Int := none
  column : Option Int := none
  endLine : Option Int := none
  endColumn : Option Int := none
deriving DecidableEq, Repr, Inhabited

/-- What a host may hand over as a place: nothing, a span, or an object with some of the parts of
a span and perhaps two names for its file. -/
inductive Location where
  | unknown
  | span (s : Span)
  | described (file filename : Option String) (line column endLine endColumn : Option Int)
deriving DecidableEq

namespace Span

/-- A span is of no known place when its line is missing. -/
def isUnknown (s : Span) : Bool :=
  s.line.isNone

/-- The span of a position, or of no known place, in a file. -/
def ofPosition (file : Option String) : Option Position → Span
  | none => { file := file }
  | some p => { file := file, line := some p.line, column := some p.column }

/-- A file name, unless it is missing or empty. -/
def named? (name : Option String) : Option String :=
  name.filter (· ≠ "")

/-- The span of a location. A span keeps its own file, `file` stands in for one that is missing;
among the names that a described place has for its file the first that is not empty counts. -/
def ofLocation (file : Option String) : Location → Span
  | .unknown => { file := file }
  | .span s => { s with file := s.file <|> file }
  | .described own other line column endLine endColumn =>
    { file := named? own <|> named? other <|> file
      line := line, column := column, endLine := endLine, endColumn := endColumn }

/-- A number that may be missing, as spans show it. -/
def part (n : Option Int) : String :=
  (n.map toString).getD "?"

/-- The text of a span: the file, if it has a name, then line and column. -/
def text (s : Span) : String :=
  match named? s.file with
  | some file => file ++ ":" ++ part s.line ++ ":" ++ part s.column
  | none => part s.line ++ ":" ++ part s.column

end Span

end AnonymousObjects
