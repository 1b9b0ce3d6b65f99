import AnonymousObjects.Proofs.Types.Structures
import AnonymousObjects.Syntax.Tokens

/-!
# What is shown for types

The text that is shown for a type is that of its structure (`Unfolds.display`), and a structure
without errors can be read back from its text (`TypeStructure.display_injective`): its last
character says how the type is made, and the texts of the fields of an anonymous type end at the
first blank outside of angle brackets. So two types with one text are the same, unless errors stand
in them (`Regular.eq_of_display`).
-/

namespace AnonymousObjects

open Syntax (inWord isWord)

/-! ## Texts of structures -/

namespace TypeStructure

mutual

/-- The text that is shown for a structure. -/
def display : TypeStructure → String
  | .named name | .error name => name
  | .pointer target => display target ++ "*"
  | .nullable inner => display inner ++ "?"
  | .anonymous fields => Store.displayName (fields.map (·.1)) (displays fields)

/-- The texts that are shown for the types of fields. -/
def displays : List (String × TypeStructure) → List String
  | [] => []
  | (_, type) :: rest => display type :: displays rest

end

/-- The text of fields, each with a comma and a blank in front. -/
def rows : List (String × TypeStructure) → List Char
  | [] => []
  | (name, type) :: rest =>
    ',' :: ' ' :: (type.display.toList ++ ' ' :: (name.toList ++ rows rest))

/-- The texts of fields, with commas and blanks between them. -/
theorem intercalate_rows (field : String × TypeStructure)
    (fields : List (String × TypeStructure)) :
    ',' :: ' ' :: (", ".toList.intercalate ((List.zipWith (fun type name => type ++ " " ++ name)
        (displays (field :: fields)) ((field :: fields).map (·.1))).map String.toList)) =
      rows (field :: fields) := by
  induction fields generalizing field with
  | nil => simp [rows, displays]
  | cons next fields ih =>
    have rest := ih next
    simp only [displays, List.map_cons, List.zipWith_cons_cons] at rest ⊢
    rw [List.intercalate_cons_cons, rows, ← rest]
    simp

/-- The text of an anonymous type with fields. -/
theorem toList_display_anonymous (field : String × TypeStructure)
    (fields : List (String × TypeStructure)) :
    (display (.anonymous (field :: fields))).toList =
      '<' :: ("anonymous type:".toList ++ (rows (field :: fields)).tail ++ ['>']) := by
  rw [← intercalate_rows, display, Store.displayName]
  simp [String.toList_intercalate]

/-! ## Where the text of a type ends -/

/-- The angle brackets around the character after a character. -/
def nesting (depth : Nat) (c : Char) : Nat :=
  if c = '<' then depth + 1 else if c = '>' then depth - 1 else depth

/-- The part of a text before the first blank outside of angle brackets, and the rest. -/
def untilBlank : Nat → List Char → List Char × List Char
  | _, [] => ([], [])
  | depth, c :: cs =>
    if depth = 0 ∧ c = ' ' then ([], c :: cs)
    else (c :: (untilBlank (nesting depth c) cs).1, (untilBlank (nesting depth c) cs).2)

/-- A text that closes its angle brackets and does not end at a blank inside of `least` others. -/
def Passes (least : Nat) (cs : List Char) : Prop :=
  ∀ depth, least ≤ depth → ∀ rest,
    untilBlank depth (cs ++ rest) = (cs ++ (untilBlank depth rest).1, (untilBlank depth rest).2)

namespace Passes

variable {least : Nat} {cs ds : List Char} {c : Char}

/-- No text at all passes. -/
theorem nil : Passes least [] := fun _ _ _ => rfl

/-- Two texts that pass do so one after the other. -/
theorem append (h : Passes least cs) (h' : Passes least ds) : Passes least (cs ++ ds) := by
  intro depth hdepth rest
  rw [List.append_assoc, h depth hdepth, h' depth hdepth, List.append_assoc]

/-- A text that passes does so inside of one more bracket. -/
theorem more (h : Passes least cs) : Passes (least + 1) cs :=
  fun depth hdepth => h depth (Nat.le_of_succ_le hdepth)

/-- A character that is no bracket, and no blank that would end the text, may stand in front. -/
theorem cons (hopen : c ≠ '<') (hclose : c ≠ '>') (hblank : least = 0 → c ≠ ' ')
    (h : Passes least cs) : Passes least (c :: cs) := by
  intro depth hdepth rest
  have goes : ¬ (depth = 0 ∧ c = ' ') := fun ⟨zero, blank⟩ => hblank (by omega) blank
  rw [List.cons_append, untilBlank, if_neg goes, nesting, if_neg hopen, if_neg hclose,
    h depth hdepth, List.cons_append]

/-- A character that is no bracket, and no blank that would end the text, may be left out in front.
-/
theorem of_cons (hopen : c ≠ '<') (hclose : c ≠ '>') (hblank : least = 0 → c ≠ ' ')
    (h : Passes least (c :: cs)) : Passes least cs := by
  intro depth hdepth rest
  have goes : ¬ (depth = 0 ∧ c = ' ') := fun ⟨zero, blank⟩ => hblank (by omega) blank
  have whole := h depth hdepth rest
  rw [List.cons_append, untilBlank, if_neg goes, nesting, if_neg hopen, if_neg hclose] at whole
  simpa [Prod.ext_iff] using whole

/-- A text without brackets, and without blanks that would end it, passes. -/
theorem of_all (h : ∀ c ∈ cs, c ≠ '<' ∧ c ≠ '>' ∧ (least = 0 → c ≠ ' ')) : Passes least cs := by
  induction cs with
  | nil => exact nil
  | cons c cs ih =>
    obtain ⟨⟨hopen, hclose, hblank⟩, rest⟩ := List.forall_mem_cons.mp h
    exact cons hopen hclose hblank (ih rest)

/-- Inside of angle brackets blanks do not count. -/
theorem bracket (h : Passes 1 cs) : Passes 0 ('<' :: (cs ++ ['>'])) := by
  intro depth _ rest
  have close : untilBlank (depth + 1) ('>' :: rest) =
      ('>' :: (untilBlank depth rest).1, (untilBlank depth rest).2) := by
    rw [untilBlank, if_neg (by simp)]
    rfl
  have inside := h (depth + 1) (Nat.le_add_left 1 depth) ('>' :: rest)
  rw [List.cons_append, List.append_assoc, List.singleton_append, untilBlank, if_neg (by simp)]
  have deeper : nesting depth '<' = depth + 1 := rfl
  rw [deeper, inside, close]
  simp

end Passes

/-- A name that can stand in the text of a type. -/
def IsPlain (name : String) : Prop :=
  ∀ c ∈ name.toList, c ≠ ' ' ∧ c ≠ ',' ∧ c ≠ '<' ∧ c ≠ '>'

/-- A plain name passes. -/
theorem IsPlain.passes {name : String} (h : IsPlain name) : Passes 0 name.toList :=
  .of_all fun c hc => ⟨(h c hc).2.2.1, (h c hc).2.2.2, fun _ => (h c hc).1⟩

mutual

/-- A structure without errors, of which the names of types are words and those of fields can stand
in a text. -/
inductive Legible : TypeStructure → Prop where
  | named (name) : isWord name.toList = true → Legible (.named name)
  | pointer (target) : Legible target → Legible (.pointer target)
  | nullable (inner) : Legible inner → Legible (.nullable inner)
  | anonymous (fields) : LegibleFields fields → Legible (.anonymous fields)

/-- Fields with legible types and names. -/
inductive LegibleFields : List (String × TypeStructure) → Prop where
  | nil : LegibleFields []
  | cons (name type fields) :
      IsPlain name → Legible type → LegibleFields fields → LegibleFields ((name, type) :: fields)

end

/-- A word consists of characters that continue a word. -/
theorem inWord_of_isWord {cs : List Char} (h : isWord cs = true) : ∀ c ∈ cs, inWord c = true := by
  cases cs with
  | nil => simp
  | cons c cs =>
    simp only [isWord, Bool.and_eq_true, List.all_eq_true] at h
    refine List.forall_mem_cons.mpr ⟨?_, h.2⟩
    simp only [Syntax.startsWord, Bool.or_eq_true] at h
    simp only [inWord, Char.isAlphanum, Bool.or_eq_true]
    exact h.1.imp_left .inl

/-- A word is a plain name. -/
theorem isPlain_of_isWord {name : String} (h : isWord name.toList = true) : IsPlain name := by
  intro c hc
  have hword := inWord_of_isWord h c hc
  refine ⟨?_, ?_, ?_, ?_⟩ <;> rintro rfl <;> exact absurd hword (by decide)

/-- The type without fields is shown in angle brackets. -/
theorem display_empty :
    (display (.anonymous [])).toList = '<' :: ("empty anonymous type".toList ++ ['>']) := by
  rw [display, Store.displayName]
  rfl

mutual

/-- The text of a legible structure ends at the next blank. -/
theorem Legible.passes {τ : TypeStructure} (h : τ.Legible) : Passes 0 τ.display.toList := by
  match h with
  | .named name word =>
    rw [display]
    exact (isPlain_of_isWord word).passes
  | .pointer target legible =>
    rw [display, String.toList_append]
    exact legible.passes.append (.cons (by decide) (by decide) (by decide) .nil)
  | .nullable inner legible =>
    rw [display, String.toList_append]
    exact legible.passes.append (.cons (by decide) (by decide) (by decide) .nil)
  | .anonymous [] _ =>
    rw [display_empty]
    exact .bracket (.of_all (by simp))
  | .anonymous (field :: fields) legible =>
    rw [toList_display_anonymous]
    exact .bracket (.append (.of_all (by simp))
      (.of_cons (by decide) (by decide) (by decide) legible.passes))

/-- The rows of legible fields pass inside of one bracket. -/
theorem LegibleFields.passes {fields : List (String × TypeStructure)} (h : LegibleFields fields) :
    Passes 1 (rows fields) := by
  match h with
  | .nil => exact .nil
  | .cons name type fields plain legible rest =>
    rw [rows]
    refine .cons (by decide) (by decide) (by decide) ?_
    refine .cons (by decide) (by decide) (by decide) ?_
    refine legible.passes.more.append ?_
    exact .cons (by decide) (by decide) (by decide) (plain.passes.more.append rest.passes)

end

/-- The text of a type and what stands behind the blank after it are found in the text of both. -/
theorem Legible.append_inj {τ τ' : TypeStructure} (h : τ.Legible) (h' : τ'.Legible)
    {cs cs' : List Char}
    (heq : τ.display.toList ++ ' ' :: cs = τ'.display.toList ++ ' ' :: cs') :
    τ.display = τ'.display ∧ cs = cs' := by
  have hread := congrArg (untilBlank 0) heq
  have stops : ∀ cs, untilBlank 0 (' ' :: cs) = ([], ' ' :: cs) := fun _ => rfl
  rw [h.passes 0 (Nat.le_refl 0), h'.passes 0 (Nat.le_refl 0), stops, stops] at hread
  simpa [String.toList_inj] using hread

/-- The name of a field and the fields behind it are found in the text of both. -/
theorem IsPlain.append_inj {name name' : String} (h : IsPlain name) (h' : IsPlain name')
    {fields fields' : List (String × TypeStructure)}
    (heq : name.toList ++ rows fields = name'.toList ++ rows fields') :
    name = name' ∧ rows fields = rows fields' := by
  have stops : ∀ fields, (rows fields).takeWhile (· ≠ ',') = [] := by
    intro fields
    cases fields <;> rfl
  have found : ∀ {name : String} (fields), IsPlain name →
      (name.toList ++ rows fields).takeWhile (· ≠ ',') = name.toList := by
    intro name fields plain
    rw [List.takeWhile_append_of_pos fun c hc => by simpa using (plain c hc).2.1, stops,
      List.append_nil]
  have hname : name.toList = name'.toList := by
    rw [← found fields h, heq, found fields' h']
  rw [hname] at heq
  exact ⟨String.toList_inj.mp hname, List.append_cancel_left heq⟩

/-! ## Reading texts back -/

/-- The last character that is shown for a structure. -/
inductive EndsWith : TypeStructure → Char → Prop where
  | named (name c) : inWord c = true → EndsWith (.named name) c
  | pointer (target) : EndsWith (.pointer target) '*'
  | nullable (inner) : EndsWith (.nullable inner) '?'
  | anonymous (fields) : EndsWith (.anonymous fields) '>'

/-- The last character of a legible text tells what kind of type it is. -/
theorem Legible.exists_last {τ : TypeStructure} (h : τ.Legible) :
    ∃ c, τ.display.toList.getLast? = some c ∧ τ.EndsWith c := by
  cases h with
  | named name word =>
    have nonempty : name.toList ≠ [] := by
      intro empty
      rw [empty] at word
      cases word
    refine ⟨_, by rw [display]; exact List.getLast?_eq_some_getLast nonempty, .named name _ ?_⟩
    exact inWord_of_isWord word _ (List.getLast_mem nonempty)
  | pointer target => exact ⟨'*', by simp [display], .pointer target⟩
  | nullable inner => exact ⟨'?', by simp [display], .nullable inner⟩
  | anonymous fields =>
    refine ⟨'>', ?_, .anonymous fields⟩
    cases fields with
    | nil => rw [display_empty]; rfl
    | cons field fields =>
      rw [toList_display_anonymous, ← List.cons_append, List.getLast?_concat]

/-- Structures with one text end with the same character. -/
theorem Legible.endsWith {τ τ' : TypeStructure} (h : τ.Legible) (h' : τ'.Legible)
    (heq : τ.display = τ'.display) : ∃ c, τ.EndsWith c ∧ τ'.EndsWith c := by
  obtain ⟨c, last, ends⟩ := h.exists_last
  obtain ⟨c', last', ends'⟩ := h'.exists_last
  rw [heq, last'] at last
  exact ⟨c', Option.some.inj last ▸ ends, ends'⟩

/-- The text of an anonymous type gives the text of its fields. -/
theorem rows_eq_of_display {fields fields' : List (String × TypeStructure)}
    (heq : (anonymous fields).display = (anonymous fields').display) :
    rows fields = rows fields' := by
  have htext := congrArg String.toList heq
  cases fields with
  | nil =>
    cases fields' with
    | nil => rfl
    | cons field' fields' =>
      rw [display_empty, toList_display_anonymous] at htext
      cases htext
  | cons field fields =>
    cases fields' with
    | nil =>
      rw [display_empty, toList_display_anonymous] at htext
      cases htext
    | cons field' fields' =>
      rw [toList_display_anonymous, toList_display_anonymous] at htext
      have htail := List.append_cancel_left (List.append_cancel_right (List.cons.inj htext).2)
      exact congrArg (',' :: ·) htail

mutual

/-- A legible structure can be read back from its text. -/
theorem display_injective {τ τ' : TypeStructure} (h : τ.Legible) (h' : τ'.Legible)
    (heq : τ.display = τ'.display) : τ = τ' := by
  -- Equal texts end in the same character, and the last character tells the constructor.
  obtain ⟨c, ends, ends'⟩ := h.endsWith h' heq
  match h with
  | .named name word =>
    cases ends with
    | named _ _ inside =>
      cases ends' with
      | named name' => rw [display, display] at heq; rw [heq]
      | pointer | nullable | anonymous => exact absurd inside (by decide)
  | .pointer target legible =>
    cases ends
    cases ends' with
    | named _ _ inside => exact absurd inside (by decide)
    | pointer target' =>
      cases h' with
      | pointer _ legible' =>
        rw [display, display, String.append_left_inj] at heq
        rw [display_injective legible legible' heq]
  | .nullable inner legible =>
    cases ends
    cases ends' with
    | named _ _ inside => exact absurd inside (by decide)
    | nullable inner' =>
      cases h' with
      | nullable _ legible' =>
        rw [display, display, String.append_left_inj] at heq
        rw [display_injective legible legible' heq]
  | .anonymous fields legible =>
    cases ends
    cases ends' with
    | named _ _ inside => exact absurd inside (by decide)
    | anonymous fields' =>
      cases h' with
      | anonymous _ legible' =>
        rw [rows_injective legible legible' (rows_eq_of_display heq)]

/-- Legible fields are told apart by their rows. -/
theorem rows_injective {fields fields' : List (String × TypeStructure)} (h : LegibleFields fields)
    (h' : LegibleFields fields') (heq : rows fields = rows fields') : fields = fields' := by
  match h with
  | .nil =>
    cases h' with
    | nil => rfl
    | cons => cases heq
  | .cons name type rest plain legible others =>
    cases h' with
    | nil => cases heq
    | cons name' type' rest' plain' legible' others' =>
      simp only [rows, List.cons.injEq, true_and] at heq
      obtain ⟨htype, hrest⟩ := legible.append_inj legible' heq
      obtain ⟨rfl, hothers⟩ := plain.append_inj plain' hrest
      rw [display_injective legible legible' htype, rows_injective others others' hothers]

end

end TypeStructure

/-! ## Types of a store -/

/-- A type that is an error type or is built from one, at any depth. -/
inductive TypeTable.BuiltFromError (t : TypeTable) : TypeId → Prop where
  | error (id d) : t.get? id = some d → d.shape = .error → BuiltFromError t id
  | part (id d part) :
      t.get? id = some d → part ∈ d.shape.arguments → BuiltFromError t part → BuiltFromError t id

namespace Store

variable {base : TypeTable} {s : Store}

mutual

/-- What is shown for a type is the text of its structure. -/
theorem Unfolds.display (hs : s.Regular base) {id : TypeId} {τ : TypeStructure}
    (h : s.Unfolds id τ) : s.table.display id = .ok τ.display := by
  rw [TypeTable.display_eq_ok_iff]
  match h with
  | .named _ shape name hd _ => exact ⟨_, hd, by rw [TypeStructure.display]⟩
  | .error _ name hd => exact ⟨_, hd, by rw [TypeStructure.display]⟩
  | .pointer _ target name τ hd hτ =>
    obtain ⟨d, htarget, rfl⟩ := hs.table.pointers _ _ _ hd
    obtain ⟨e, he, hname⟩ := TypeTable.display_eq_ok_iff.mp (hτ.display hs)
    obtain rfl := Option.some.inj (htarget.symm.trans he)
    exact ⟨_, hd, by rw [TypeStructure.display, hname]⟩
  | .nullable _ inner name τ hd hτ =>
    obtain ⟨d, hinner, rfl⟩ := hs.table.nullables _ _ _ hd
    obtain ⟨e, he, hname⟩ := TypeTable.display_eq_ok_iff.mp (hτ.display hs)
    obtain rfl := Option.some.inj (hinner.symm.trans he)
    exact ⟨_, hd, by rw [TypeStructure.display, hname]⟩
  | .anonymous _ a fields ha hid hkey =>
    obtain ⟨shown, hshown, hd⟩ := hs.shown a ha
    obtain ⟨hnames, htypes⟩ := hkey.displays hs
    obtain rfl : shown = _ := Except.ok.inj (hshown.symm.trans htypes)
    exact ⟨_, hid ▸ hd, by rw [TypeStructure.display, hnames]⟩

/-- The types of a key are shown as what they unfold to. -/
theorem UnfoldsKey.displays (hs : s.Regular base) {key : AnonymousKey}
    {fields : List (String × TypeStructure)} (h : s.UnfoldsKey key fields) :
    key.map (·.1) = fields.map (·.1) ∧
      Store.displays s.table key = .ok (TypeStructure.displays fields) := by
  match h with
  | .nil => exact ⟨rfl, rfl⟩
  | .cons name id τ key fields hid hkey =>
    obtain ⟨hnames, htypes⟩ := hkey.displays hs
    obtain ⟨d, hd, hname⟩ := TypeTable.display_eq_ok_iff.mp (hid.display hs)
    refine ⟨by rw [List.map_cons, hnames, List.map_cons], ?_⟩
    refine displays_cons_iff.mpr ⟨d, _, hd, htypes, ?_⟩
    rw [TypeStructure.displays, hname]

end

/-- The names in a store can stand in the text of a type. -/
structure Legible (s : Store) : Prop where
  types : ∀ id d, s.table.get? id = some d → d.shape.isNamed = true → isWord d.name.toList = true
  fields : ∀ a ∈ s.registry.types, ∀ field ∈ a.key, TypeStructure.IsPlain field.1

mutual

/-- The structure of a type that is not built from errors is legible. -/
theorem Unfolds.legible (hs : s.Sound base) (hnames : s.Legible) {id : TypeId} {τ : TypeStructure}
    (h : s.Unfolds id τ) (hid : ¬ s.table.BuiltFromError id) : τ.Legible := by
  match h with
  | .named _ shape name hd hnamed => exact .named name (hnames.types id _ hd hnamed)
  | .error _ name hd => exact absurd (.error id _ hd rfl) hid
  | .pointer _ target name τ hd hτ =>
    refine .pointer τ (hτ.legible hs hnames fun herror => hid ?_)
    exact .part id _ target hd List.mem_cons_self herror
  | .nullable _ inner name τ hd hτ =>
    refine .nullable τ (hτ.legible hs hnames fun herror => hid ?_)
    exact .part id _ inner hd List.mem_cons_self herror
  | .anonymous _ a fields ha haid hkey =>
    obtain ⟨name, hd⟩ := hs.registered a ha
    refine .anonymous fields (hkey.legible hs hnames (hnames.fields a ha) ?_)
    intro pair hpair herror
    exact hid (haid ▸ .part a.id _ pair.2 hd (List.mem_map_of_mem hpair) herror)

/-- A key of plain names and types without errors unfolds to legible fields. -/
theorem UnfoldsKey.legible (hs : s.Sound base) (hnames : s.Legible) {key : AnonymousKey}
    {fields : List (String × TypeStructure)} (h : s.UnfoldsKey key fields)
    (hplain : ∀ field ∈ key, TypeStructure.IsPlain field.1)
    (hkey : ∀ field ∈ key, ¬ s.table.BuiltFromError field.2) :
    TypeStructure.LegibleFields fields := by
  match h with
  | .nil => exact .nil
  | .cons name id τ key fields hid hrest =>
    obtain ⟨hname, hplain⟩ := List.forall_mem_cons.mp hplain
    obtain ⟨hfirst, hkey⟩ := List.forall_mem_cons.mp hkey
    exact .cons name τ fields hname (hid.legible hs hnames hfirst)
      (hrest.legible hs hnames hplain hkey)

end

/-- Types with one text are the same type, if no errors stand in them. -/
theorem Regular.eq_of_display (hs : s.Regular base) (hnames : s.Legible) {id id' : TypeId}
    {shown : String} (h : s.table.display id = .ok shown) (h' : s.table.display id' = .ok shown)
    (hid : ¬ s.table.BuiltFromError id) (hid' : ¬ s.table.BuiltFromError id') : id = id' := by
  obtain ⟨d, hd, _⟩ := TypeTable.display_eq_ok_iff.mp h
  obtain ⟨d', hd', _⟩ := TypeTable.display_eq_ok_iff.mp h'
  obtain ⟨τ, hτ⟩ := hs.toSound.unfolds ⟨d, hd⟩
  obtain ⟨τ', hτ'⟩ := hs.toSound.unfolds ⟨d', hd'⟩
  rw [hτ.display hs] at h
  rw [hτ'.display hs] at h'
  have hsame := TypeStructure.display_injective (hτ.legible hs.toSound hnames hid)
    (hτ'.legible hs.toSound hnames hid') (Except.ok.inj (h.trans h'.symm))
  exact hτ.injective hs (hsame ▸ hτ')

end Store

end AnonymousObjects
