/-!
# File paths

A path leads from the root, or from the folder at hand, through the names between its slashes.
Paths are shown in normal form: no empty names and none that is a single dot. The empty path is the
folder at hand, a dot.
-/

namespace AnonymousObjects.Path

/-- The slashes that stay in front of a path: two when there are exactly two, else at most one. -/
def root : List Char → List Char
  | '/' :: '/' :: '/' :: _ => ['/']
  | '/' :: '/' :: _ => ['/', '/']
  | '/' :: _ => ['/']
  | _ => []

/-- The parts of a path between slashes. -/
def parts : List Char → List (List Char)
  | [] => [[]]
  | c :: cs =>
    if c = '/' then [] :: parts cs
    else
      match parts cs with
      | [] => [[c]]
      | part :: rest => (c :: part) :: rest

/-- The names that a path leads through. -/
def names (s : String) : List String :=
  ((parts s.toList).filter fun part => part ≠ [] ∧ part ≠ ['.']).map String.ofList

/-- A path that leads from the root. -/
def isAbsolute (s : String) : Bool :=
  s.toList.head? = some '/'

/-- No name holds a null character, so a path with one leads nowhere. -/
def leadsNowhere (s : String) : Bool :=
  s.toList.any (· = '\x00')

/-- The normal form of a path. -/
def normal (s : String) : String :=
  let shown := String.ofList (root s.toList) ++ String.intercalate "/" (names s)
  if shown = "" then "." else shown

end AnonymousObjects.Path
