import AnonymousObjects.Proofs.Syntax.Creations

/-!
# The order of the source text

The tokens of a text are listed in the order in which they start, and no two start at the same
place (`ofText_ascending`). So the creations of an expression in a program are listed in the order
of their words `new` (`Program.creations_ascending`).
-/

namespace AnonymousObjects

namespace Position

/-- The first position comes before the second one in a text. -/
def Before (p q : Position) : Prop :=
  p.line < q.line ∨ p.line = q.line ∧ p.column < q.column

/-- The first position is the second one or comes before it. -/
def UpTo (p q : Position) : Prop :=
  p = q ∨ p.Before q

variable {p q r : Position}

/-- A position comes up to itself. -/
theorem UpTo.refl (p : Position) : p.UpTo p :=
  .inl rfl

/-- A position before another comes up to it. -/
theorem Before.upTo (h : p.Before q) : p.UpTo q :=
  .inr h

/-- What is before something is before what comes after that. -/
theorem Before.trans (h : p.Before q) (h' : q.Before r) : p.Before r := by
  unfold Before at *
  omega

/-- What comes up to something is before what comes after that. -/
theorem UpTo.trans_before (h : p.UpTo q) (h' : q.Before r) : p.Before r := by
  rcases h with rfl | h
  · exact h'
  · exact h.trans h'

/-- What is before something is before what that comes up to. -/
theorem Before.trans_upTo (h : p.Before q) (h' : q.UpTo r) : p.Before r := by
  rcases h' with rfl | h'
  · exact h
  · exact h.trans h'

/-- What comes up to something comes up to what that comes up to. -/
theorem UpTo.trans (h : p.UpTo q) (h' : q.UpTo r) : p.UpTo r := by
  rcases h' with rfl | h'
  · exact h
  · exact (h.trans_before h').upTo

/-- A character takes up room. -/
theorem before_next (p : Position) (c : Char) : p.Before (p.next c) := by
  unfold Before next
  split <;> simp

end Position

namespace Syntax

/-! ## Tokens -/

/-- `Between lo ts hi` says that tokens start one after another, none of them before `lo` and all of
them before `hi`. -/
inductive Between : Position → List Token → Position → Prop where
  | nil (lo hi) : lo.UpTo hi → Between lo [] hi
  | cons (lo t mid ts hi) :
      lo.UpTo t.position → t.position.Before mid → Between mid ts hi → Between lo (t :: ts) hi

variable {v : Vocabulary} {lo mid hi p q : Position} {c : Char} {t : Token} {ts us : List Token}
  {scan : Scan} {move : Scan.Move}

namespace Between

/-- One token starts between the positions around it. -/
theorem single (hlo : lo.UpTo t.position) (hhi : t.position.Before hi) : Between lo [t] hi :=
  .cons lo t hi [] hi hlo hhi (.nil hi hi (.refl hi))

/-- Tokens may start after an earlier position as well. -/
theorem widen (h : Between mid ts hi) (hlo : lo.UpTo mid) : Between lo ts hi := by
  cases h with
  | nil _ _ hhi => exact .nil lo hi (hlo.trans hhi)
  | cons _ t mid' ts _ hmid ht hts => exact .cons lo t mid' ts hi (hlo.trans hmid) ht hts

/-- Tokens between two positions may be followed by tokens after the second one. -/
theorem append (hts : Between lo ts mid) (hus : Between mid us hi) : Between lo (ts ++ us) hi := by
  induction hts with
  | nil lo mid hmid => exact hus.widen hmid
  | cons lo t mid' ts mid hlo ht _ ih => exact .cons lo t mid' (ts ++ us) hi hlo ht (ih hus)

/-- No token starts before the first position. -/
theorem upTo (h : Between lo ts hi) : ∀ t ∈ ts, lo.UpTo t.position := by
  induction h with
  | nil => simp
  | cons lo t mid ts hi hlo ht _ ih =>
      intro u hu
      rcases List.mem_cons.mp hu with rfl | hu
      · exact hlo
      · exact hlo.trans (ht.trans_upTo (ih u hu)).upTo

/-- Each token starts before those that come after it. -/
theorem ascending (h : Between lo ts hi) : ts.Pairwise (·.position.Before ·.position) := by
  induction h with
  | nil => exact .nil
  | cons lo t mid ts hi _ ht hts ih =>
      exact .cons (fun u hu => ht.trans_upTo (hts.upTo u hu)) ih

end Between

namespace Scan

/-- Where a token starts that has been begun. -/
def start? : Scan → Option Position
  | .word start _ | .number start _ | .string start _ _ | .slash start | .colon start
  | .question start => some start
  | .between | .comment => none

/-- Where the next token may start at the earliest, if reading has come to a position. -/
def earliest (scan : Scan) (p : Position) : Position :=
  scan.start?.getD p

/-- What has been begun was begun before a position. -/
def BegunBefore (scan : Scan) (p : Position) : Prop :=
  ∀ start, scan.start? = some start → start.Before p

/-- What has been begun started no later than the scan is. -/
theorem BegunBefore.earliest (h : scan.BegunBefore p) : (scan.earliest p).UpTo p := by
  unfold Scan.earliest
  cases hstart : scan.start? with
  | none => exact .refl p
  | some start => exact (h start hstart).upTo

/-- A move completes tokens that start from `lo` on, before what it begins, and that in turn
before `hi`. -/
def Move.Ordered (lo hi : Position) : Move → Prop
  | .on completed scan => Between lo completed (scan.earliest hi) ∧ scan.BegunBefore hi
  | .stop completed _ _ => ∃ mid, Between lo completed mid

/-- A token that is completed comes before what the move begins. -/
theorem Move.Ordered.completing (h : move.Ordered mid hi) (hlo : lo.UpTo t.position)
    (ht : t.position.Before mid) : (move.completing t).Ordered lo hi := by
  cases move with
  | on completed scan => exact ⟨.cons lo t mid completed _ hlo ht h.1, h.2⟩
  | stop completed c position =>
      obtain ⟨last, h⟩ := h
      exact ⟨last, .cons lo t mid completed last hlo ht h⟩

/-- Nothing is completed, and what goes on has begun where the next token may start. -/
theorem Move.ordered_on (hlo : lo.UpTo (scan.earliest hi)) (hbegun : scan.BegunBefore hi) :
    (Move.on [] scan).Ordered lo hi :=
  ⟨.nil lo _ hlo, hbegun⟩

/-- A token is completed, and nothing is begun. -/
theorem Move.ordered_between (hlo : lo.UpTo t.position) (ht : t.position.Before hi) :
    (Move.on [t] .between).Ordered lo hi :=
  ⟨.single hlo ht, by simp [BegunBefore, start?]⟩

/-- A move that stops has no tokens out of order. -/
theorem Move.ordered_stop {bad : Char} : (Move.stop [] bad q).Ordered lo hi :=
  ⟨lo, .nil lo lo (.refl lo)⟩

/-- A word has the place where it started. -/
theorem wordToken_position (v : Vocabulary) (p : Position) (reversed : List Char) :
    (wordToken v p reversed).position = p := by
  unfold wordToken Token.ofWord
  split <;> rfl

/-- What is begun by a character starts there. -/
theorem begin_ordered (v : Vocabulary) (p : Position) (c : Char) :
    (begin v p c).Ordered p (p.next c) := by
  have hp := p.before_next c
  -- Whatever is begun starts at `p`.
  have hbegun : ∀ scan : Scan, scan.start? = some p → (Move.on [] scan).Ordered p (p.next c) :=
    fun scan hstart => Move.ordered_on (by simp [earliest, hstart, Position.UpTo.refl])
      (by simpa [BegunBefore, hstart] using hp)
  unfold begin
  split_ifs
  · exact Move.ordered_on hp.upTo (by simp [BegunBefore, start?])
  · exact hbegun _ rfl
  · exact hbegun _ rfl
  · exact hbegun _ rfl
  · exact hbegun _ rfl
  · exact hbegun _ rfl
  · exact hbegun _ rfl
  · split
    · next m _ =>
      split
      · exact Move.ordered_between (.refl p) hp
      · exact Move.ordered_stop
    · exact Move.ordered_stop

/-- Each step of the scan keeps tokens in order. -/
theorem step_ordered (v : Vocabulary) (c : Char) (h : scan.BegunBefore p) :
    (scan.step v p c).Ordered (scan.earliest p) (p.next c) := by
  have hp := p.before_next c
  -- What goes on has been begun where it was, and so has what ends here.
  have hgoes : ∀ {start : Position} (scan : Scan), start.Before p → scan.start? = some start →
      (Move.on [] scan).Ordered start (p.next c) := fun scan hbefore hstart =>
    Move.ordered_on (by simp [earliest, hstart, Position.UpTo.refl])
      (by simpa [BegunBefore, hstart] using hbefore.trans hp)
  cases scan with
  | between => exact begin_ordered v p c
  | word start reversed =>
      have hstart : start.Before p := h start rfl
      simp only [step]
      split
      · exact hgoes _ hstart rfl
      · have ht := wordToken_position v start reversed
        exact (begin_ordered v p c).completing (.inl ht.symm) (by rwa [ht])
  | number start reversed =>
      have hstart : start.Before p := h start rfl
      simp only [step]
      split
      · exact hgoes _ hstart rfl
      · exact (begin_ordered v p c).completing (.refl start) hstart
  | string start reversed afterBackslash =>
      have hstart : start.Before p := h start rfl
      cases afterBackslash <;> simp only [step] <;> split
      · exact Move.ordered_between (.refl start) (hstart.trans hp)
      · exact hgoes _ hstart rfl
      · exact Move.ordered_stop
      · exact hgoes _ hstart rfl
  | comment =>
      simp only [step]
      split <;> exact Move.ordered_on hp.upTo (by simp [BegunBefore, start?])
  | slash start =>
      have hstart : start.Before p := h start rfl
      simp only [step]
      split
      · exact Move.ordered_on (hstart.trans hp).upTo (by simp [BegunBefore, start?])
      · exact Move.ordered_stop
  | colon start =>
      have hstart : start.Before p := h start rfl
      simp only [step]
      split
      · exact Move.ordered_between (.refl start) (hstart.trans hp)
      · split
        · exact (begin_ordered v p c).completing (.refl start) hstart
        · exact Move.ordered_stop
  | question start =>
      have hstart : start.Before p := h start rfl
      simp only [step]
      split
      · exact Move.ordered_between (.refl start) (hstart.trans hp)
      · exact Move.ordered_stop

end Scan

namespace Tokens

/-- What is left at the end keeps tokens in order. -/
theorem atEnd_ordered (v : Vocabulary) (h : scan.BegunBefore p) :
    Between (scan.earliest p) (atEnd v scan).list p := by
  cases scan with
  | word start reversed =>
      have ht := Scan.wordToken_position v start reversed
      exact .single (.inl ht.symm) (by rw [ht]; exact h start rfl)
  | number start reversed => exact .single (.refl start) (h start rfl)
  | colon start =>
      simp only [atEnd]
      split
      · exact .single (.refl start) (h start rfl)
      · exact .nil _ p (h.earliest)
  | between | comment | string | slash | question => exact .nil _ p h.earliest

/-- The scan of a text gives tokens in order. -/
theorem scanFrom_ordered (v : Vocabulary) (h : scan.BegunBefore p) (cs : List Char) :
    ∃ hi, Between (scan.earliest p) (scanFrom v scan p cs).list hi := by
  induction cs generalizing scan p with
  | nil => exact ⟨p, atEnd_ordered v h⟩
  | cons c cs ih =>
    have hordered := Scan.step_ordered v c h
    rw [scanFrom]
    split
    · next completed scan hmove =>
      rw [hmove] at hordered
      obtain ⟨hi, hrest⟩ := ih hordered.2
      exact ⟨hi, hordered.1.append hrest⟩
    · next completed bad place hmove =>
      rw [hmove] at hordered
      exact hordered

/-- The tokens of a source text are listed in the order in which they start. -/
theorem ofText_ascending (v : Vocabulary) (cs : List Char) :
    (ofText v cs).list.Pairwise (·.position.Before ·.position) := by
  have hbegun : Scan.BegunBefore .between .start := by simp [Scan.BegunBefore, Scan.start?]
  obtain ⟨hi, h⟩ := scanFrom_ordered v hbegun cs
  exact h.ascending

end Tokens

/-! ## Creations -/

/-- The word `new` of the first creation comes before that of the second one in a text. -/
def Expr.Precedes (c d : Expr) : Prop :=
  ∃ p q, c.new? = some p ∧ d.new? = some q ∧ p.Before q

/-- The creations of an expression in a program are listed in the order of their words `new`. -/
theorem Program.creations_ascending [Text.CharacterNames] {source : List Char} {p : Program}
    (hp : Program.parse source = .ok p) {m : MemberDecl} (hm : m ∈ p.members) {e : Expr}
    (he : e ∈ m.allExprs) : e.creations.Pairwise Expr.Precedes := by
  obtain ⟨d, hd, rfl⟩ := Program.exists_derivation hp
  obtain ⟨s, rfl, hs⟩ := d.exists_sum hm he
  have hascending : s.tokens.Pairwise (·.position.Before ·.position) :=
    (Tokens.ofText_ascending .program source).sublist (hd ▸ hs.sublist)
  have hnews : (Grammar.news s.tokens).Pairwise
      fun x y => ∃ p q, x = some p ∧ y = some q ∧ p.Before q :=
    List.pairwise_map.mpr ((hascending.filter _).imp fun h => ⟨_, _, rfl, rfl, h⟩)
  rw [← s.news_build, List.pairwise_map] at hnews
  exact hnews

end Syntax

end AnonymousObjects
