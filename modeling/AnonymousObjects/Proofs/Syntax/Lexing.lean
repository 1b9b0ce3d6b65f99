import AnonymousObjects.Proofs.Syntax.SourceOrder
import AnonymousObjects.Proofs.Syntax.StringTokens
import Mathlib.Data.List.TakeWhile

/-!
# Tokens and what stands between them

A text is a row of tokens with blanks and comments between them, in which every token goes on as
long as it can. `Reads` says so without following the characters one by one, and
`Tokens.scanFrom_eq_iff` that these are the tokens which are read. So each of them is written in the
text at its line and column (`Tokens.standsIn`).
-/

namespace AnonymousObjects

/-- The line behind a text comes from its line feeds, the column from what follows the last one. -/
theorem Position.start_after (cs : List Char) :
    start.after cs = ⟨cs.count '\n' + 1, (cs.reverse.takeWhile (· ≠ '\n')).length + 1⟩ := by
  induction cs using List.reverseRecOn with
  | nil => rfl
  | append_singleton cs c ih =>
      rw [after_append, ih]
      by_cases hc : c = '\n'
      · simp [next, hc]
      · simp [next, hc]

namespace Syntax

/-! ## Between tokens -/

/-- Blanks and comments, each of them with the line feed at its end. -/
inductive Layout : List Char → Prop where
  | nil : Layout []
  | blank (c cs) : isBlank c = true → Layout cs → Layout (c :: cs)
  | comment (text cs) :
      '\n' ∉ text → Layout cs → Layout ('/' :: '/' :: (text ++ '\n' :: cs))

/-- What may stand at the end of a text: nothing, or a comment without a line feed at its end. -/
inductive LastComment : List Char → Prop where
  | none : LastComment []
  | some (text) : '\n' ∉ text → LastComment ('/' :: '/' :: text)

/-- The characters that make a token of a kind longer, or another one. -/
def TokenKind.goesOn : TokenKind → Char → Bool
  | .name, c | .keyword _, c => inWord c
  | .integer, c => c.isDigit
  | .mark .colon, c => c == ':'
  | .string, _ | .mark _, _ => false

/-- A token is whole in front of a text: the text does not go on with it. -/
def Token.EndsBefore (t : Token) (rest : List Char) : Prop :=
  ∀ c ∈ rest.head?, t.kind.goesOn c = false

/-- `Reads v rest p cs ts` says that the text `cs` at `p`, in front of `rest`, is the row of tokens
`ts` with layout around them. -/
inductive Reads (v : Vocabulary) (rest : List Char) : Position → List Char → List Token → Prop where
  | layout (p cs) : Layout cs → Reads v rest p cs []
  | token (p gap t cs ts) :
      Layout gap → t.position = p.after gap → t.Spelled v → t.Quoted → t.EndsBefore (cs ++ rest) →
      Reads v rest (p.after (gap ++ t.text.toList)) cs ts →
      Reads v rest p (gap ++ (t.text.toList ++ cs)) (t :: ts)

variable {v : Vocabulary} {p q : Position} {c : Char} {cs ds xs ys ins rest : List Char} {t : Token}
  {ts us : List Token}

/-- Layout may be followed by layout. -/
theorem Layout.append (hcs : Layout cs) (hds : Layout ds) : Layout (cs ++ ds) := by
  induction hcs with
  | nil => exact hds
  | blank c cs hc _ ih => exact .blank c (cs ++ ds) hc ih
  | comment text cs htext _ ih =>
      simpa using Layout.comment text (cs ++ ds) htext ih

/-- Layout starts with a blank or a slash, which are in no word, number or mark. -/
theorem Layout.goesOn_head (h : Layout cs) (k : TokenKind) :
    ∀ c ∈ cs.head?, k.goesOn c = false := by
  have hblank : ∀ c, isBlank c = true → k.goesOn c = false := by
    intro c hc
    simp only [isBlank, Bool.or_eq_true, beq_iff_eq] at hc
    rcases hc with (((rfl | rfl) | rfl) | rfl) | rfl <;> unfold TokenKind.goesOn <;> split <;> rfl
  intro c hc
  cases h with
  | nil => cases hc
  | blank d _ hd =>
      obtain rfl : d = c := by simpa using hc
      exact hblank d hd
  | comment =>
      obtain rfl : '/' = c := by simpa using hc
      unfold TokenKind.goesOn
      split <;> rfl

namespace Token.EndsBefore

/-- A token stays whole if layout is inserted behind it. -/
theorem layout (h : t.EndsBefore rest) (hins : Layout ins) : t.EndsBefore (ins ++ rest) := by
  cases ins with
  | nil => exact h
  | cons c ins =>
      intro d hd
      exact hins.goesOn_head t.kind d hd

/-- A token stays whole if layout is inserted after a text behind it. -/
theorem insert (h : t.EndsBefore (cs ++ rest)) (hins : Layout ins) :
    t.EndsBefore (cs ++ (ins ++ rest)) := by
  cases cs with
  | nil => exact h.layout hins
  | cons c cs => exact h

end Token.EndsBefore

/-- Tokens have characters. -/
theorem Token.text_ne_nil (hspelled : t.Spelled v) (hquoted : t.Quoted) : t.text.toList ≠ [] := by
  obtain ⟨kind, text, position⟩ := t
  cases kind with
  | name =>
      rintro hnil
      have hword : isWord text.toList = true := hspelled.1
      rw [show text.toList = [] from hnil] at hword
      cases hword
  | integer => exact hspelled.1
  | string =>
      obtain ⟨body, htext, -⟩ := hquoted rfl
      rw [htext]
      simp
  | keyword k =>
      rintro hnil
      have hword := Tokens.isWord_of_keyword hspelled
      rw [show text.toList = [] from hnil] at hword
      cases hword
  | mark m =>
      obtain ⟨rfl, -⟩ := hspelled
      cases m <;> simp [Mark.text]

namespace Reads

/-- Layout in front of a row. -/
theorem layout_append (hxs : Layout xs) (h : Reads v rest (p.after xs) ys ts) :
    Reads v rest p (xs ++ ys) ts := by
  cases h with
  | layout _ _ hys => exact .layout p (xs ++ ys) (hxs.append hys)
  | token _ gap t cs ts hgap hposition hspelled hquoted hends h =>
      rw [← List.append_assoc]
      refine .token p (xs ++ gap) t cs ts (hxs.append hgap) ?_ hspelled hquoted hends ?_
      · rw [hposition, Position.after_append]
      · rwa [List.append_assoc, Position.after_append]

/-- Two rows one after the other are a row. -/
theorem append (hts : Reads v (ys ++ rest) p xs ts) (hus : Reads v rest (p.after xs) ys us) :
    Reads v rest p (xs ++ ys) (ts ++ us) := by
  induction hts with
  | layout p xs hxs => exact layout_append hxs hus
  | token p gap t cs ts hgap hposition hspelled hquoted hends _ ih =>
      have hrest := ih (by rwa [← Position.after_append, List.append_assoc])
      rw [List.append_assoc, List.append_assoc]
      exact .token p gap t (cs ++ ys) (ts ++ us) hgap hposition hspelled hquoted
        (by rwa [List.append_assoc]) hrest

/-- A row stays the same if layout is inserted behind it. -/
theorem layout_behind (h : Reads v rest p cs ts) (hins : Layout ins) :
    Reads v (ins ++ rest) p cs ts := by
  induction h with
  | layout p cs hcs => exact .layout p cs hcs
  | token p gap t cs ts hgap hposition hspelled hquoted hends _ ih =>
      exact .token p gap t cs ts hgap hposition hspelled hquoted (hends.insert hins) ih

/-- A token by itself. -/
theorem single (hposition : t.position = p) (hspelled : t.Spelled v) (hquoted : t.Quoted)
    (hends : t.EndsBefore rest) : Reads v rest p t.text.toList [t] := by
  have h := Reads.token (v := v) p [] t [] [] .nil hposition hspelled hquoted hends
    (.layout _ [] .nil)
  rwa [List.append_nil, List.nil_append] at h

/-- Every token of a row stands at its place in the text, between two rows. -/
theorem exists_split (h : Reads v rest p cs (ts ++ t :: us)) :
    ∃ xs ys, cs = xs ++ (t.text.toList ++ ys) ∧ t.position = p.after xs ∧
      Reads v (t.text.toList ++ (ys ++ rest)) p xs ts ∧
      Reads v (ys ++ rest) (p.after xs) t.text.toList [t] ∧
      Reads v rest ((p.after xs).after t.text.toList) ys us := by
  induction ts generalizing p cs with
  | nil =>
      cases h with
      | token _ gap _ ys _ hgap hposition hspelled hquoted hends h =>
          refine ⟨gap, ys, rfl, hposition, .layout p gap hgap,
            single hposition hspelled hquoted hends, ?_⟩
          rwa [← Position.after_append]
  | cons u ts ih =>
      cases h with
      | token _ gap _ cs _ hgap hposition hspelled hquoted hends h =>
          obtain ⟨xs, ys, rfl, hplace, hts, ht, hus⟩ := ih h
          refine ⟨gap ++ (u.text.toList ++ xs), ys, by simp, ?_, ?_, ?_, ?_⟩
          · simpa [Position.after_append] using hplace
          · exact .token p gap u xs ts hgap hposition hspelled hquoted (by simpa using hends) hts
          · simpa [Position.after_append] using ht
          · simpa [Position.after_append] using hus

end Reads

/-! ## Reading character by character -/

namespace Tokens

/-- A blank between tokens only moves the position. -/
theorem scanFrom_blank (p : Position) (hc : isBlank c = true) (cs : List Char) :
    scanFrom v .between p (c :: cs) = scanFrom v .between (p.next c) cs := by
  have hbegin : Scan.step v p c .between = .on [] .between := by simp [Scan.step, Scan.begin, hc]
  rw [scanFrom, hbegin]
  rfl

/-- A comment goes on up to a line feed. -/
theorem scanFrom_comment (p : Position) {text : List Char} (htext : '\n' ∉ text)
    (rest : List Char) :
    scanFrom v .comment p (text ++ rest) = scanFrom v .comment (p.after text) rest := by
  induction text generalizing p with
  | nil => rfl
  | cons c text ih =>
      obtain ⟨hc, htext⟩ : '\n' ≠ c ∧ '\n' ∉ text := by simpa using htext
      have hstep : Scan.step v p c .comment = .on [] .comment := by
        simp [Scan.step, Ne.symm hc]
      rw [List.cons_append, scanFrom, hstep]
      exact ih (p.next c) htext

/-- Layout is passed over. -/
theorem scanFrom_layout (p : Position) (h : Layout cs) (rest : List Char) :
    scanFrom v .between p (cs ++ rest) = scanFrom v .between (p.after cs) rest := by
  induction h generalizing p with
  | nil => rfl
  | blank c cs hc _ ih =>
      rw [List.cons_append, scanFrom_blank p hc]
      exact ih (p.next c)
  | comment text cs htext _ ih =>
      have hslashes : scanFrom v .between p ('/' :: '/' :: (text ++ '\n' :: cs) ++ rest) =
          scanFrom v .comment ((p.next '/').next '/') (text ++ '\n' :: (cs ++ rest)) := by
        simp only [List.cons_append, List.append_assoc]
        rfl
      have hline (q : Position) : scanFrom v .comment q ('\n' :: (cs ++ rest)) =
          scanFrom v .between (q.next '\n') (cs ++ rest) := rfl
      rw [hslashes, scanFrom_comment _ htext, hline, ih]
      simp [Position.after_append]

/-- A mark by itself. -/
theorem scanFrom_mark (p : Position) {m : Mark} (hm : v.hasMark m = true)
    (hrest : ∀ c ∈ rest.head?, (TokenKind.mark m).goesOn c = false) :
    scanFrom v .between p (m.text.toList ++ rest) =
      prepend [.ofMark m p] (scanFrom v .between (p.after m.text.toList) rest) := by
  cases m with
  | colon =>
      -- The colon ends where the next character shows that it is not the first of two.
      refine scanFrom_break (· ≠ ':') ?_ (fun p c hc => ?_) (p.next ':') fun c hc => ?_
      · simp [atEnd, hm]
      · simp [Scan.step, hc, hm]
      · simpa [TokenKind.goesOn] using hrest c hc
  | star =>
      cases v with
      | expression => cases hm
      | program => rfl
  | _ => cases v <;> rfl

/-- A token by itself, in front of a text that does not go on with it. -/
theorem scanFrom_whole (p : Position) (hspelled : t.Spelled v) (hquoted : t.Quoted)
    (hends : t.EndsBefore rest) :
    scanFrom v .between p (t.text.toList ++ rest) =
      prepend [t.at p] (scanFrom v .between (p.after t.text.toList) rest) := by
  obtain ⟨kind, text, position⟩ := t
  cases kind with
  | name =>
      rw [scanFrom_startWord p hspelled.1 hends]
      simp [Token.ofWord, Token.at, hspelled.2]
  | integer =>
      rw [scanFrom_startNumber p hspelled.1 hspelled.2 hends]
      simp [Token.at]
  | string =>
      obtain ⟨body, htext, hbody⟩ := hquoted rfl
      rw [htext, List.cons_append, List.append_assoc]
      refine (scanFrom_quoted p hbody rest).trans ?_
      rw [← htext, String.ofList_toList]
      rfl
  | keyword k =>
      rw [scanFrom_startWord p (isWord_of_keyword hspelled) hends]
      simp [Token.ofWord, Token.at, show v.keyword? text = some k from hspelled]
  | mark m =>
      obtain ⟨rfl, hm⟩ := hspelled
      exact scanFrom_mark p hm hends

/-- The tokens of a row are read. -/
theorem scanFrom_of_reads (h : Reads v rest p cs ts) (hrest : LastComment rest) :
    scanFrom v .between p (cs ++ rest) = ⟨ts, none⟩ := by
  induction h with
  | layout p cs hcs =>
      rw [scanFrom_layout p hcs]
      cases hrest with
      | none => rfl
      | some text htext =>
          have hcomment := scanFrom_comment (v := v) (((p.after cs).next '/').next '/') htext []
          rw [List.append_nil] at hcomment
          exact hcomment
  | token p gap t cs ts hgap hposition hspelled hquoted hends _ ih =>
      rw [List.append_assoc, List.append_assoc, scanFrom_layout p hgap,
        scanFrom_whole _ hspelled hquoted hends, ← Position.after_append, ih, ← hposition]
      rfl

/-- A string that is read to its end has one. -/
theorem exists_body {start : Position} {reversed : List Char} {afterBackslash : Bool}
    (h : (scanFrom v (.string start reversed afterBackslash) p cs).unreadable = none) :
    ∃ body rest, cs = body ++ '"' :: rest ∧ staysQuoted afterBackslash body = true := by
  induction cs generalizing p reversed afterBackslash with
  | nil => cases h
  | cons c cs ih =>
      cases afterBackslash with
      | false =>
          by_cases hc : c = '"'
          · exact ⟨[], cs, by rw [hc]; rfl, rfl⟩
          · simp only [scanFrom, Scan.step, hc, if_false] at h
            obtain ⟨body, rest, rfl, hbody⟩ := ih h
            exact ⟨c :: body, rest, rfl, by simp [staysQuoted, hc, hbody]⟩
      | true =>
          by_cases hc : c = '\n'
          · simp only [scanFrom, Scan.step, hc, if_true] at h
            cases h
          · simp only [scanFrom, Scan.step, hc, if_false] at h
            obtain ⟨body, rest, rfl, hbody⟩ := ih h
            exact ⟨c :: body, rest, rfl, by simp [staysQuoted, hc, hbody]⟩

end Tokens

/-- The characters up to the first that is not of some kind. -/
theorem exists_longest (kind : Char → Bool) (cs : List Char) :
    ∃ xs rest, cs = xs ++ rest ∧ (∀ c ∈ xs, kind c = true) ∧ ∀ c ∈ rest.head?, kind c = false := by
  refine ⟨cs.takeWhile kind, cs.dropWhile kind, List.takeWhile_append_dropWhile.symm, ?_, ?_⟩
  · intro c hc
    exact List.mem_takeWhile_imp hc
  · intro c hc
    have hfirst := List.head?_dropWhile_not kind cs
    rwa [Option.mem_def.mp hc] at hfirst

namespace Tokens

/-- A mark of a single character. -/
theorem mark?_spec {m : Mark} (h : mark? c = some m) : m.text.toList = [c] ∧ m ≠ .colon := by
  unfold mark? at h
  split at h
  all_goals
    first
    | cases h
      exact ⟨rfl, by decide⟩
    | cases h

/-- The colon is the only mark that a character makes another one. -/
theorem endsBefore_ofMark {m : Mark} (hm : m ≠ .colon) (p : Position) (rest : List Char) :
    (Token.ofMark m p).EndsBefore rest := by
  intro c _
  cases m with
  | colon => exact absurd rfl hm
  | _ => rfl

end Tokens

/-- A text starts with a token that the rest does not go on with. -/
def StartsWhole (v : Vocabulary) (cs : List Char) : Prop :=
  ∃ (t : Token) (rest : List Char),
    cs = t.text.toList ++ rest ∧ t.Spelled v ∧ t.Quoted ∧ t.EndsBefore rest

namespace StartsWhole

/-- A letter starts a whole word. -/
theorem word (hc : startsWord c = true) (cs : List Char) : StartsWhole v (c :: cs) := by
  obtain ⟨xs, rest, rfl, hxs, hrest⟩ := exists_longest inWord cs
  have hword : isWord (c :: xs) = true := by simpa [isWord, hc] using hxs
  cases hkeyword : v.keyword? (String.ofList (c :: xs)) with
  | some k =>
      exact ⟨⟨.keyword k, String.ofList (c :: xs), .start⟩, rest, by simp, hkeyword,
        Token.quoted_of_kind (by simp), hrest⟩
  | none =>
      exact ⟨⟨.name, String.ofList (c :: xs), .start⟩, rest, by simp,
        ⟨by simpa using hword, hkeyword⟩, Token.quoted_of_kind (by simp), hrest⟩

/-- A digit starts a whole number. -/
theorem number (hc : c.isDigit = true) (cs : List Char) : StartsWhole v (c :: cs) := by
  obtain ⟨xs, rest, rfl, hxs, hrest⟩ := exists_longest Char.isDigit cs
  exact ⟨⟨.integer, String.ofList (c :: xs), .start⟩, rest, by simp,
    ⟨by simp, by simpa [hc] using hxs⟩, Token.quoted_of_kind (by simp), hrest⟩

/-- A quotation mark starts a whole string if the string is closed. -/
theorem string (start : Position)
    (h : (Tokens.scanFrom v (.string start ['"'] false) p cs).unreadable = none) :
    StartsWhole v ('"' :: cs) := by
  obtain ⟨body, rest, rfl, hbody⟩ := Tokens.exists_body h
  exact ⟨⟨.string, String.ofList ('"' :: (body ++ ['"'])), .start⟩, rest, by simp, trivial,
    fun _ => ⟨body, by simp, hbody⟩, fun _ _ => rfl⟩

/-- The colon is the only mark that a character can make another one. -/
theorem mark {m : Mark} (hm : v.hasMark m = true) (hends : (Token.ofMark m p).EndsBefore cs) :
    StartsWhole v (m.text.toList ++ cs) :=
  ⟨.ofMark m p, cs, rfl, Token.ofMark_spelled hm, Scan.quoted_ofMark m p, hends⟩

/-- A colon starts a whole mark if it is followed by another. -/
theorem colon (start : Position)
    (h : (Tokens.scanFrom v (.colon start) p cs).unreadable = none) :
    StartsWhole v (':' :: cs) := by
  cases cs with
  | nil =>
      have hm : v.hasMark .colon = true := by
        by_contra hm
        simp [Tokens.scanFrom, Tokens.atEnd, hm] at h
      exact mark (p := p) hm (by simp [Token.EndsBefore])
  | cons d cs =>
      by_cases hd : d = ':'
      · subst hd
        exact mark (p := p) (m := .colons) (by cases v <;> rfl) fun _ _ => rfl
      · have hm : v.hasMark .colon = true := by
          by_contra hm
          simp [Tokens.scanFrom, Scan.step, hd, hm] at h
        exact mark (p := p) hm (by simp [Token.EndsBefore, Token.ofMark, TokenKind.goesOn, hd])

/-- A question mark starts a whole mark if it is followed by a dot. -/
theorem question (start : Position)
    (h : (Tokens.scanFrom v (.question start) p cs).unreadable = none) :
    StartsWhole v ('?' :: cs) := by
  cases cs with
  | nil => cases h
  | cons d cs =>
      by_cases hd : d = '.'
      · subst hd
        exact mark (p := p) (m := .questionDot) (by cases v <;> rfl) fun _ _ => rfl
      · simp [Tokens.scanFrom, Scan.step, hd] at h

/-- A text without unreadable characters that starts with no blank or slash starts with a token. -/
theorem of_readable (hblank : isBlank c = false) (hslash : c ≠ '/')
    (h : (Tokens.scanFrom v .between p (c :: cs)).unreadable = none) :
    StartsWhole v (c :: cs) := by
  -- The first character decides; a mark of one character is what is left when nothing else begins.
  by_cases hword : startsWord c = true
  · exact word hword cs
  by_cases hdigit : c.isDigit = true
  · exact number hdigit cs
  by_cases hquote : c = '"'
  · subst hquote
    exact string p (p := p.next '"') h
  by_cases hcolon : c = ':'
  · subst hcolon
    exact colon p (p := p.next ':') h
  by_cases hquestion : c = '?'
  · subst hquestion
    exact question p (p := p.next '?') h
  simp only [Tokens.scanFrom, Scan.step, Scan.begin, hblank, hword, hdigit, hquote, hslash, hcolon,
    hquestion, if_false, Bool.false_eq_true] at h
  cases hmark : mark? c with
  | none => simp [hmark] at h
  | some m =>
      obtain ⟨htext, hends⟩ := Tokens.mark?_spec hmark
      have hm : v.hasMark m = true := by
        by_contra hm
        simp [hmark, hm] at h
      have hstarts : StartsWhole v (m.text.toList ++ cs) :=
        mark hm (Tokens.endsBefore_ofMark hends p cs)
      rwa [htext] at hstarts

end StartsWhole

namespace Tokens

/-- A slash starts a comment, which ends with a line feed or with the text. -/
theorem exists_comment (start : Position)
    (h : (scanFrom v (.slash start) p cs).unreadable = none) :
    ∃ text, '\n' ∉ text ∧ (cs = '/' :: text ∨ ∃ ds, cs = '/' :: (text ++ '\n' :: ds)) := by
  cases cs with
  | nil => cases h
  | cons c cs =>
      obtain rfl : c = '/' := by
        by_contra hc
        simp [scanFrom, Scan.step, hc] at h
      obtain ⟨text, rest, rfl, htext, hrest⟩ := exists_longest (· ≠ '\n') cs
      refine ⟨text, fun hmem => by simpa using htext _ hmem, ?_⟩
      cases rest with
      | nil => exact .inl (by simp)
      | cons d ds =>
          obtain rfl : d = '\n' := by simpa using hrest d rfl
          exact .inr ⟨ds, rfl⟩

/-- A text without unreadable characters is a row of tokens. -/
theorem exists_reads (v : Vocabulary) (p : Position) (cs : List Char)
    (h : (scanFrom v .between p cs).unreadable = none) :
    ∃ xs rest ts, cs = xs ++ rest ∧ LastComment rest ∧ Reads v rest p xs ts := by
  match cs with
  | [] => exact ⟨[], [], [], rfl, .none, .layout p [] .nil⟩
  | c :: cs =>
    by_cases hblank : isBlank c = true
    · rw [scanFrom_blank p hblank] at h
      obtain ⟨xs, rest, ts, rfl, hrest, hreads⟩ := exists_reads v (p.next c) cs h
      have hlayout : Layout [c] := .blank c [] hblank .nil
      exact ⟨[c] ++ xs, rest, ts, rfl, hrest, hreads.layout_append hlayout⟩
    by_cases hslash : c = '/'
    · subst hslash
      obtain ⟨text, htext, rfl | ⟨ds, rfl⟩⟩ := exists_comment p (p := p.next '/') h
      · exact ⟨[], _, [], rfl, .some text htext, .layout p [] .nil⟩
      · have hcomment : Layout ('/' :: '/' :: (text ++ ['\n'])) := .comment text [] htext .nil
        have hsplit : '/' :: '/' :: (text ++ '\n' :: ds) =
            '/' :: '/' :: (text ++ ['\n']) ++ ds := by simp
        rw [hsplit, scanFrom_layout p hcomment] at h
        obtain ⟨xs, rest, ts, rfl, hrest, hreads⟩ := exists_reads v _ ds h
        exact ⟨_ ++ xs, rest, ts, by simp, hrest, hreads.layout_append hcomment⟩
    obtain ⟨t, rest, hcs, hspelled, hquoted, hends⟩ :=
      StartsWhole.of_readable (by simpa using hblank) hslash h
    rw [hcs, scanFrom_whole p hspelled hquoted hends] at h
    -- A token has at least one character, so what follows it is shorter.
    have hlength : rest.length ≤ cs.length := by
      have hsum := congrArg List.length hcs
      rw [List.length_cons, List.length_append] at hsum
      have hpos := List.length_pos_of_ne_nil (Token.text_ne_nil hspelled hquoted)
      omega
    obtain ⟨xs, last, ts, rfl, hlast, hreads⟩ := exists_reads v (p.after t.text.toList) rest h
    have hsingle : Reads v (xs ++ last) p t.text.toList [t.at p] :=
      .single (t := t.at p) rfl hspelled hquoted hends
    exact ⟨t.text.toList ++ xs, last, t.at p :: ts, by simpa using hcs, hlast,
      hsingle.append hreads⟩
termination_by cs.length

/-- The tokens that are read are those of the text, if no character of it is unreadable. -/
theorem scanFrom_eq_iff :
    scanFrom v .between p cs = ⟨ts, none⟩ ↔
      ∃ xs rest, cs = xs ++ rest ∧ LastComment rest ∧ Reads v rest p xs ts := by
  constructor
  · intro h
    obtain ⟨xs, rest, us, rfl, hrest, hreads⟩ := exists_reads v p cs (by rw [h])
    have hus := scanFrom_of_reads hreads hrest
    obtain rfl : us = ts := by
      rw [hus] at h
      exact congrArg Tokens.list h
    exact ⟨xs, rest, rfl, hrest, hreads⟩
  · rintro ⟨xs, rest, rfl, hrest, hreads⟩
    exact scanFrom_of_reads hreads hrest

end Tokens

/-! ## Where tokens stand -/

/-- A token is written in a text between two others, at its line and column. Both count from 1. -/
structure Token.StandsIn (t : Token) (source before behind : List Char) : Prop where
  text : source = before ++ (t.text.toList ++ behind)
  line : t.position.line = before.count '\n' + 1
  column : t.position.column = (before.reverse.takeWhile (· ≠ '\n')).length + 1

/-- A token stands where its text does, at the position after what is before. -/
theorem Token.standsIn_iff {source : List Char} :
    t.StandsIn source xs ys ↔
      source = xs ++ (t.text.toList ++ ys) ∧ t.position = Position.start.after xs := by
  rw [Position.start_after]
  constructor
  · intro h
    exact ⟨h.text, congrArg₂ Position.mk h.line h.column⟩
  · rintro ⟨htext, hposition⟩
    exact ⟨htext, by rw [hposition], by rw [hposition]⟩

/-- The tokens of a text stand in it. -/
theorem Tokens.standsIn {source : List Char} (h : (ofText v source).unreadable = none) :
    ∀ t ∈ (ofText v source).list, ∃ before behind, t.StandsIn source before behind := by
  obtain ⟨xs, rest, ts, rfl, hrest, hreads⟩ := exists_reads v .start source h
  rw [ofText, scanFrom_of_reads hreads hrest]
  intro t ht
  obtain ⟨before, behind, rfl⟩ := List.append_of_mem ht
  obtain ⟨zs, ys, rfl, hplace, -⟩ := hreads.exists_split
  exact ⟨zs, ys ++ rest, Token.standsIn_iff.mpr ⟨by simp, hplace⟩⟩

end Syntax

end AnonymousObjects
