/-!
# Lines

A text falls into lines at every character that Unicode takes for the end of a line, and at those
that separate files, groups and records. A carriage return with a line feed after it ends one line
only, and what is empty after the last end is no line. No line has an end inside it
(`endsLine_of_mem_split`).
-/

namespace AnonymousObjects.Text.Lines

/-- The characters that end a line. -/
def endsLine (c : Char) : Bool :=
  c.toNat ∈ [0x0A, 0x0B, 0x0C, 0x0D, 0x1C, 0x1D, 0x1E, 0x85, 0x2028, 0x2029]

/-- A character in front of the first line. -/
def prepend (c : Char) : List (List Char) → List (List Char)
  | [] => [[c]]
  | line :: rest => (c :: line) :: rest

/-- The lines of a text. -/
def split : List Char → List (List Char)
  | [] => []
  | '\r' :: '\n' :: cs => [] :: split cs
  | c :: cs => if endsLine c then [] :: split cs else prepend c (split cs)

/-- The first line of a text. -/
def first (cs : List Char) : List Char :=
  cs.takeWhile (!endsLine ·)

/-- The last line of a text. -/
def last (cs : List Char) : List Char :=
  (split cs).getLast?.getD []

/-- No line holds a character that ends lines. -/
theorem endsLine_of_mem_split {cs line : List Char} {c : Char} (h : line ∈ split cs)
    (hc : c ∈ line) : endsLine c = false := by
  fun_induction split cs generalizing line with
  | case1 => simp at h
  | case2 cs ih =>
    rcases List.mem_cons.mp h with rfl | h
    · simp at hc
    · exact ih h hc
  | case3 d cs _ hd ih =>
    rcases List.mem_cons.mp h with rfl | h
    · simp at hc
    · exact ih h hc
  | case4 d cs _ hd ih =>
    cases hs : split cs with
    | nil =>
      simp only [hs, prepend, List.mem_singleton] at h
      subst h
      simp only [List.mem_singleton] at hc
      simpa [hc] using hd
    | cons first rest =>
      simp only [hs, prepend, List.mem_cons] at h ih
      rcases h with rfl | h
      · rcases List.mem_cons.mp hc with rfl | hc
        · simpa using hd
        · exact ih (.inl rfl) hc
      · exact ih (.inr h) hc

end AnonymousObjects.Text.Lines
