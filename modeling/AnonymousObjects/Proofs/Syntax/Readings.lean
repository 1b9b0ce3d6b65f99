import AnonymousObjects.Proofs.Syntax.Scoping
import AnonymousObjects.Proofs.Syntax.Words
import AnonymousObjects.Syntax.Expr.MemberName
import AnonymousObjects.Syntax.Parse

/-!
# Expressions from source text

An expression that source text is read into is `Readable`: its names are words, it holds no
unreadable text, and its member bindings have targets. The invariant of the two machines is that
what has been read so far is readable; `Expr.parse_readable` and `Program.parse_readable` are what
it says of whole texts.
-/

namespace AnonymousObjects.Syntax

/-! ## Readable expressions -/

/-- Words are identifiers. -/
theorem isIdentifier_of_isWord {cs : List Char} (h : isWord cs = true) :
    Text.isIdentifier cs = true := by
  cases cs with
  | nil => exact h
  | cons c cs =>
    obtain ⟨hstart, hrest⟩ := Bool.and_eq_true_iff.mp h
    have hin : ∀ d ∈ cs, Text.inIdentifier d = true := fun d hd =>
      Bool.or_eq_true_iff.mpr (.inl (List.all_eq_true.mp hrest d hd))
    exact Bool.and_eq_true_iff.mpr
      ⟨Bool.or_eq_true_iff.mpr (.inl hstart), List.all_eq_true.mpr hin⟩

/-- A name as source text has it: a word of ASCII characters. -/
def Name.isProper (name : Name) : Bool :=
  isWord name.text.toList

/-- The names of source text are identifiers. -/
theorem Name.isIdentifier_of_proper {name : Name} (h : name.isProper = true) :
    name.isIdentifier = true :=
  isIdentifier_of_isWord h

namespace Expr

mutual

/-- The names in the expression are words, and no part of it is unreadable. -/
def isProper : Expr → Bool
  | identifier name | memberBinding _ name => name.isProper
  | memberAccess _ target name => isProper target && name.isProper
  | qualifiedName _ left right => isProper left && right.isProper
  | conditionalAccess _ target access => isProper target && isProper access
  | invocation _ callee arguments => isProper callee && allProper arguments
  | literal _ _ => true
  | binary _ _ left right => isProper left && isProper right
  | parenthesized _ inner => isProper inner
  | creation _ _ initializers => initializersProper initializers
  | error _ _ => false

/-- The same of several expressions. -/
def allProper : List Expr → Bool
  | [] => true
  | e :: es => isProper e && allProper es

/-- The same of several initializers, with the names in front of them. -/
def initializersProper : List (Initializer Expr) → Bool
  | [] => true
  | ⟨_, label, value⟩ :: rest =>
    label.all (·.isProper) && isProper value && initializersProper rest

end

/-- An expression as source text has it. -/
structure Readable (e : Expr) : Prop where
  proper : e.isProper = true
  closed : e.hasStray = false

/-- An initializer as source text has it. -/
structure ReadableInitializer (init : Initializer Expr) : Prop where
  label : init.label.all (·.isProper) = true
  value : init.value.Readable

variable {e target left right : Expr} {es : List Expr} {inits : List (Initializer Expr)}
  {name : Name} {p : Option Position}

/-- Expressions have proper names where each of them does. -/
theorem allProper_iff : allProper es = true ↔ ∀ e ∈ es, e.isProper = true := by
  induction es with
  | nil => simp [allProper]
  | cons e es ih => simp [allProper, ih]

/-- Expressions have no stray member binding where none of them has. -/
theorem anyHasStray_iff : anyHasStray es = false ↔ ∀ e ∈ es, e.hasStray = false := by
  induction es with
  | nil => simp [anyHasStray]
  | cons e es ih => simp [anyHasStray, ih]

/-- Initializers have proper names where each label and each value does. -/
theorem initializersProper_iff :
    initializersProper inits = true ↔
      ∀ i ∈ inits, i.label.all (·.isProper) = true ∧ i.value.isProper = true := by
  induction inits with
  | nil => simp [initializersProper]
  | cons i inits ih => simp [initializersProper, ih]

/-- Initializers have no stray member binding where no value has. -/
theorem initializerHasStray_iff :
    initializerHasStray inits = false ↔ ∀ i ∈ inits, i.value.hasStray = false := by
  induction inits with
  | nil => simp [initializerHasStray]
  | cons i inits ih => simp [initializerHasStray, ih]

/-- A creation of readable initializers is readable. -/
theorem readable_creation {new : Option Position} (h : ∀ i ∈ inits, ReadableInitializer i) :
    (creation p new inits).Readable where
  proper := by
    simpa only [isProper, initializersProper_iff] using
      fun i hi => ⟨(h i hi).label, (h i hi).value.proper⟩
  closed := by
    simpa only [hasStray, initializerHasStray_iff] using fun i hi => (h i hi).value.closed

/-- A binary expression with readable sides is readable. -/
theorem readable_binary {op : String} (hleft : left.Readable) (hright : right.Readable) :
    (binary p op left right).Readable :=
  ⟨by simp [isProper, hleft.proper, hright.proper], by simp [hasStray, hleft.closed, hright.closed]⟩

/-- A name that a proper expression lends is a word. -/
theorem isProper_of_lentName : ∀ {e : Expr} {name : Name}, e.isProper = true →
    e.lentName = some name → name.isProper = true
  | identifier _, _, he, rfl => he
  | memberBinding _ _, _, he, rfl => he
  | memberAccess _ _ _, _, he, rfl => (Bool.and_eq_true_iff.mp he).2
  | qualifiedName _ _ _, _, he, rfl => (Bool.and_eq_true_iff.mp he).2
  | conditionalAccess _ _ access, _, he, hname =>
    isProper_of_lentName (e := access) (Bool.and_eq_true_iff.mp he).2 hname

/-- An expression of a shape that lends a name lends a word if it is readable. -/
theorem lentName_of_proper : ∀ {e : Expr}, e.isProper = true → e.lendsName = true →
    ∃ name, e.lentName = some name ∧ name.isProper = true
  | identifier name, h, _ => ⟨name, rfl, by simpa [isProper] using h⟩
  | memberAccess _ _ name, h, _ => ⟨name, rfl, by simp_all [isProper]⟩
  | qualifiedName _ _ name, h, _ => ⟨name, rfl, by simp_all [isProper]⟩
  | conditionalAccess _ _ (memberBinding _ name), h, _ => ⟨name, rfl, by simp_all [isProper]⟩
  | conditionalAccess _ _ (identifier name), h, _ => ⟨name, rfl, by simp_all [isProper]⟩
  | conditionalAccess _ _ (memberAccess _ _ name), h, _ => ⟨name, rfl, by simp_all [isProper]⟩
  | conditionalAccess _ _ (qualifiedName _ _ name), h, _ => ⟨name, rfl, by simp_all [isProper]⟩
  | conditionalAccess _ _ (conditionalAccess q target access), h, hlends => by
      simp only [isProper, Bool.and_eq_true] at h
      have hproper : (conditionalAccess q target access).isProper = true := by
        simp [isProper, h.2]
      obtain ⟨name, hname, hproper⟩ :=
        lentName_of_proper hproper (by simpa [lendsName] using hlends)
      exact ⟨name, hname, hproper⟩
  | conditionalAccess _ _ (invocation _ _ _), _, hlends
  | conditionalAccess _ _ (literal _ _), _, hlends
  | conditionalAccess _ _ (binary _ _ _ _), _, hlends
  | conditionalAccess _ _ (parenthesized _ _), _, hlends
  | conditionalAccess _ _ (creation _ _ _), _, hlends
  | conditionalAccess _ _ (error _ _), _, hlends
  | memberBinding _ _, _, hlends
  | invocation _ _ _, _, hlends
  | literal _ _, _, hlends
  | binary _ _ _ _, _, hlends
  | parenthesized _ _, _, hlends
  | creation _ _ _, _, hlends
  | error _ _, _, hlends => by simp [lendsName] at hlends

/-- A postfix operation that keeps expressions readable may be applied inside conditional
accesses. -/
theorem readable_extend {operation : Expr → Expr}
    (hproper : ∀ e : Expr, e.isProper = true → (operation e).isProper = true)
    (hclosed : ∀ e : Expr, e.hasStray = false → (operation e).hasStray = false)
    (h : e.Readable) : (e.extend operation).Readable := by
  have hextend : ∀ e : Expr, e.isProper = true → (e.extend operation).isProper = true := by
    intro e he
    fun_induction extend operation e with
    | case1 p target access ih =>
      simp only [isProper, Bool.and_eq_true] at he ⊢
      exact ⟨he.1, ih he.2⟩
    | case2 e _ => exact hproper e he
  refine ⟨hextend e h.proper, ?_⟩
  have hstray := h.closed
  cases e with
  | conditionalAccess p target access => simpa [extend, hasStray] using hstray
  | _ => exact hclosed _ hstray

end Expr

/-! ## Tokens one by one -/

/-- What each token keeps, a row of tokens keeps. -/
theorem feed_keeps {σ : Type} {shift : σ → Token → Option σ} {good : σ → Prop}
    (hshift : ∀ {r r' t}, good r → t.WellNamed → shift r t = some r' → good r') {r r' : σ}
    {ts : List Token} (hr : good r) (hts : WellNamed ts) (h : feed shift r ts = .ok r') :
    good r' := by
  induction ts generalizing r with
  | nil =>
    obtain rfl : r = r' := Except.ok.inj h
    exact hr
  | cons t ts ih =>
    rw [feed] at h
    split at h
    · cases h
    · next next hnext =>
      have hgood := hshift hr (hts t (by simp)) hnext
      exact ih hgood (fun u hu => hts u (by simp [hu])) h

/-- A text that is read gives tokens that are read one by one. -/
theorem readText_eq_ok [Text.CharacterNames] {σ α : Type} {v : Vocabulary}
    {shift : σ → Token → Option σ} {value? : σ → Option α} {start : σ} {source : List Char} {a : α}
    (h : readText v shift value? start source = .ok a) :
    ∃ r, feed shift start (Tokens.ofText v source).list = .ok r ∧ value? r = some a := by
  simp only [readText, readTokens] at h
  cases hfeed : feed shift start (Tokens.ofText v source).list with
  | error t => simp [hfeed] at h
  | ok r =>
    cases hunreadable : (Tokens.ofText v source).unreadable with
    | some bad => simp [hfeed, hunreadable] at h
    | none =>
      cases hvalue : value? r with
      | none => simp [hfeed, hunreadable, hvalue] at h
      | some b =>
        simp only [hfeed, hunreadable, hvalue] at h
        split at h
        · cases h
        · exact ⟨r, rfl, by rw [hvalue, Except.ok.inj h]⟩

/-- There is no error if no token has a fault. -/
theorem faultIn_eq_none_iff [Text.CharacterNames] {ts : List Token} :
    faultIn ts = none ↔ ∀ t ∈ ts, t.fault? = none := by
  induction ts with
  | nil => simp [faultIn]
  | cons t ts ih =>
    rw [faultIn]
    cases hfault : t.fault? with
    | none => simp [ih, hfault]
    | some fault => cases fault <;> simp [hfault]

/-- The tokens of a text that is read have no faults. -/
theorem faultIn_of_readText [Text.CharacterNames] {σ α : Type} {v : Vocabulary}
    {shift : σ → Token → Option σ} {value? : σ → Option α} {start : σ} {source : List Char} {a : α}
    (h : readText v shift value? start source = .ok a) :
    faultIn (Tokens.ofText v source).list = none := by
  simp only [readText] at h
  split at h
  · cases h
  · split at h
    · cases h
    · next hnone => exact hnone

/-- A text without faults whose tokens are all read has the value of what they are read into. -/
theorem readText_of_feed [Text.CharacterNames] {σ α : Type} {v : Vocabulary}
    {shift : σ → Token → Option σ} {value? : σ → Option α} {start r : σ} {source : List Char}
    {a : α}
    (hlex : (Tokens.ofText v source).unreadable = none)
    (hfaults : faultIn (Tokens.ofText v source).list = none)
    (hfeed : feed shift start (Tokens.ofText v source).list = .ok r) (hvalue : value? r = some a) :
    readText v shift value? start source = .ok a := by
  simp [readText, readTokens, hfeed, hlex, hvalue, hfaults]

/-! ## Expressions -/

namespace Reading

/-- What an open bracket holds is readable. -/
def Frame.Readable : Frame → Prop
  | .paren left _ => ∀ e ∈ left, e.Readable
  | .argument left callee before =>
    (∀ e ∈ left, e.Readable) ∧ callee.Readable ∧ ∀ e ∈ before, e.Readable
  | .initializer left _ before label =>
    (∀ e ∈ left, e.Readable) ∧ (∀ i ∈ before, Expr.ReadableInitializer i) ∧
      label.all (·.isProper) = true

/-- The expression at the place reached is readable. -/
def Point.Readable : Point → Prop
  | .dot e | .questionDot e | .colons e | .complete e => e.Readable
  | .operand | .firstArgument | .initializer | .new _ => True

/-- What has been read so far is readable. -/
structure Fine (r : Reading) : Prop where
  frames : ∀ f ∈ r.frames, f.Readable
  left : ∀ e ∈ r.left, e.Readable
  point : r.point.Readable

variable {r r' : Reading} {t : Token} {e : Expr} {left : Option Expr}

/-- Nothing has been read at the start. -/
theorem start_fine : start.Fine :=
  ⟨by simp [start], by simp [start], trivial⟩

/-- Only the point that reading is at has to be readable again. -/
theorem Fine.at (h : r.Fine) {point : Point} (hpoint : point.Readable) :
    Fine { r with point := point } :=
  ⟨h.frames, h.left, hpoint⟩

/-- Something readable may be held by a bracket inside those that are open. -/
theorem Fine.held {f : Frame} {outer : List Frame} {point : Point} (hf : f.Readable)
    (houter : ∀ g ∈ outer, g.Readable) (hpoint : point.Readable) :
    Fine ⟨f :: outer, none, point⟩ :=
  ⟨List.forall_mem_cons.mpr ⟨hf, houter⟩, by simp, hpoint⟩

/-- A name token makes a proper name. -/
theorem nameOf_isProper (ht : t.WellNamed) (hname : t.kind = .name) :
    (nameOf t).isProper = true := by
  simpa [nameOf, Name.isProper] using ht hname

/-- A sum with readable sides is readable. -/
theorem sum_readable (hleft : ∀ e ∈ left, e.Readable) (he : e.Readable) :
    (sum left e).Readable := by
  cases left with
  | none => exact he
  | some first => exact Expr.readable_binary (hleft first rfl) he

/-- An initializer with a proper label and a readable value is readable. -/
theorem initializerOf_readable {label : Option Name} (hlabel : label.all (·.isProper) = true)
    (he : e.Readable) : Expr.ReadableInitializer (initializerOf label e) := by
  cases label with
  | none => exact ⟨rfl, he⟩
  | some name => exact ⟨hlabel, he⟩

/-- A member access to something readable is readable. -/
theorem access_readable {name : Name} (hname : name.isProper = true) (he : e.Readable) :
    (e.extend (access name)).Readable :=
  Expr.readable_extend (fun e he => by simp [access, Expr.isProper, he, hname])
    (fun e he => by simpa [access, Expr.hasStray] using he) he

/-- A conditional access to something readable is readable. -/
theorem conditional_readable {name : Name} (hname : name.isProper = true) (he : e.Readable) :
    (e.extend (conditional name)).Readable :=
  Expr.readable_extend (fun e he => by simp [conditional, Expr.isProper, he, hname])
    (fun e he => by simpa [conditional, Expr.hasStray] using he) he

/-- A call of something readable with readable arguments is readable. -/
theorem call_readable {arguments : List Expr} (harguments : ∀ e ∈ arguments, e.Readable)
    (he : e.Readable) : (e.extend (call arguments)).Readable := by
  have hproper := Expr.allProper_iff.mpr fun e he => (harguments e he).proper
  have hclosed := Expr.anyHasStray_iff.mpr fun e he => (harguments e he).closed
  exact Expr.readable_extend (fun e he => by simp [call, Expr.isProper, he, hproper])
    (fun e he => by simp [call, Expr.hasStray, he, hclosed]) he

/-- A token that opens an operand keeps readings readable. -/
theorem openOperand_fine [Text.CharacterNames] (h : r.Fine) (ht : t.WellNamed)
    (hr : r.openOperand t = some r') : r'.Fine := by
  unfold openOperand at hr
  split at hr
  · next hname =>
    obtain rfl := Option.some.inj hr
    have hproper := nameOf_isProper ht hname
    exact h.at ⟨by simpa [Expr.isProper] using hproper, rfl⟩
  · obtain rfl := Option.some.inj hr
    exact .held h.left h.frames trivial
  · obtain rfl := Option.some.inj hr
    exact h.at trivial
  · obtain rfl := Option.some.inj hr
    exact h.at ⟨rfl, rfl⟩
  · cases hr

/-- The innermost bracket may be closed. -/
theorem Fine.close (h : r.Fine) {f : Frame} {outer : List Frame} (hframes : r.frames = f :: outer) :
    f.Readable ∧ ∀ g ∈ outer, g.Readable := by
  have hall := h.frames
  rw [hframes] at hall
  exact List.forall_mem_cons.mp hall

/-- A mark after a readable operand keeps readings readable. -/
theorem afterOperand_fine (h : r.Fine) {operand : Expr} (hoperand : operand.Readable) {m : Mark}
    (hr : r.afterOperand operand m = some r') : r'.Fine := by
  -- Marks that end a sum all put the operand to what is on its left, in whatever frame they then
  -- close.
  have hsum {left : Option Expr} (hleft : ∀ e ∈ left, e.Readable) :=
    sum_readable hleft hoperand
  unfold afterOperand at hr
  split at hr
  · obtain rfl := Option.some.inj hr
    exact ⟨h.frames, by simpa using hsum h.left, trivial⟩
  · obtain rfl := Option.some.inj hr
    exact h.at hoperand
  · obtain rfl := Option.some.inj hr
    exact h.at hoperand
  -- Two colons are allowed after a path only.
  · split at hr
    · obtain rfl := Option.some.inj hr
      exact h.at hoperand
    · cases hr
  · obtain rfl := Option.some.inj hr
    exact .held ⟨h.left, hoperand, by simp⟩ h.frames trivial
  -- An equals sign turns the identifier before it into the label of the initializer it stands in.
  · next left new before outer hframes =>
    obtain ⟨⟨hleft, hbefore, _⟩, houter⟩ := h.close hframes
    split at hr
    · next name _ =>
      obtain rfl := Option.some.inj hr
      have hlabel : (some name).all (·.isProper) = true := by
        simpa [Expr.isProper] using hoperand.proper
      exact .held ⟨hleft, hbefore, hlabel⟩ houter trivial
    · cases hr
  -- The brackets: each closes the frame it belongs to, a comma opens the same frame again.
  · next left start outer hframes =>
    obtain ⟨hleft, houter⟩ := h.close hframes
    obtain rfl := Option.some.inj hr
    have hinner := hsum h.left
    exact ⟨houter, hleft, ⟨by simpa [Expr.isProper] using hinner.proper, hinner.closed⟩⟩
  · next left callee before outer hframes =>
    obtain ⟨⟨hleft, hcallee, hbefore⟩, houter⟩ := h.close hframes
    obtain rfl := Option.some.inj hr
    have harguments :=
      List.forall_mem_append.mpr ⟨hbefore, List.forall_mem_singleton.mpr (hsum h.left)⟩
    exact ⟨houter, hleft, call_readable harguments hcallee⟩
  · next left callee before outer hframes =>
    obtain ⟨⟨hleft, hcallee, hbefore⟩, houter⟩ := h.close hframes
    obtain rfl := Option.some.inj hr
    have harguments :=
      List.forall_mem_append.mpr ⟨hbefore, List.forall_mem_singleton.mpr (hsum h.left)⟩
    exact .held ⟨hleft, hcallee, harguments⟩ houter trivial
  · next left new before label outer hframes =>
    obtain ⟨⟨hleft, hbefore, hlabel⟩, houter⟩ := h.close hframes
    obtain rfl := Option.some.inj hr
    have hlast := initializerOf_readable hlabel (hsum h.left)
    have hitems := List.forall_mem_append.mpr ⟨hbefore, List.forall_mem_singleton.mpr hlast⟩
    exact .held ⟨hleft, hitems, rfl⟩ houter trivial
  · next left new before label outer hframes =>
    obtain ⟨⟨hleft, hbefore, hlabel⟩, houter⟩ := h.close hframes
    obtain rfl := Option.some.inj hr
    have hlast := initializerOf_readable hlabel (hsum h.left)
    have hitems := List.forall_mem_append.mpr ⟨hbefore, List.forall_mem_singleton.mpr hlast⟩
    exact ⟨houter, hleft, Expr.readable_creation hitems⟩
  · cases hr

/-- A token keeps what has been read readable. -/
theorem shift_fine [Text.CharacterNames] (h : r.Fine) (ht : t.WellNamed)
    (hr : r.shift t = some r') : r'.Fine := by
  have hpoint := h.point
  unfold shift at hr
  split at hr
  · exact openOperand_fine h ht hr
  · split at hr
    · next left callee before outer hframes =>
      obtain ⟨⟨hleft, hcallee, hbefore⟩, houter⟩ := h.close hframes
      obtain rfl := Option.some.inj hr
      exact ⟨houter, hleft, call_readable hbefore hcallee⟩
    · cases hr
  · exact openOperand_fine h ht hr
  · split at hr
    · next left new before label outer hframes =>
      obtain ⟨⟨hleft, hbefore, _⟩, houter⟩ := h.close hframes
      obtain rfl := Option.some.inj hr
      exact ⟨houter, hleft, Expr.readable_creation hbefore⟩
    · cases hr
  · exact openOperand_fine h ht hr
  · obtain rfl := Option.some.inj hr
    exact .held ⟨h.left, by simp, rfl⟩ h.frames trivial
  · next target hdot hname =>
    obtain rfl := Option.some.inj hr
    rw [hdot] at hpoint
    exact h.at (access_readable (nameOf_isProper ht hname) hpoint)
  · next target hdot hname =>
    obtain rfl := Option.some.inj hr
    rw [hdot] at hpoint
    exact h.at (conditional_readable (nameOf_isProper ht hname) hpoint)
  · next path hcolons hname =>
    obtain rfl := Option.some.inj hr
    rw [hcolons] at hpoint
    have hproper := nameOf_isProper ht hname
    exact h.at ⟨by simp [Expr.isProper, hpoint.proper, hproper], hpoint.closed⟩
  · next operand m hcomplete hmark =>
    rw [hcomplete] at hpoint
    exact afterOperand_fine h hpoint hr
  · cases hr

/-- What has been read as a whole is readable. -/
theorem value?_readable (h : r.Fine) (hvalue : r.value? = some e) : e.Readable := by
  unfold value? at hvalue
  split at hvalue
  · next operand hframes hcomplete =>
    obtain rfl := Option.some.inj hvalue
    have hpoint := h.point
    rw [hcomplete] at hpoint
    exact sum_readable h.left hpoint
  · cases hvalue

end Reading

/-- An expression that is read from source text is readable. -/
theorem Expr.parse_readable [Text.CharacterNames] {source : List Char} {e : Expr}
    (h : Expr.parse source = .ok e) : e.Readable := by
  obtain ⟨r, hfeed, hvalue⟩ := readText_eq_ok h
  have hfine := feed_keeps Reading.shift_fine Reading.start_fine
    (Tokens.ofText_wellNamed .expression source) hfeed
  exact Reading.value?_readable hfine hvalue

/-! ## Programs -/

/-- The expressions of a member and of its local functions are readable. -/
inductive MemberDecl.Readable : MemberDecl → Prop where
  | member (position kind name exprs locals) :
      (∀ e ∈ exprs, e.Readable) → (∀ m ∈ locals, MemberDecl.Readable m) →
      MemberDecl.Readable ⟨position, kind, name, exprs, locals⟩

/-- The expressions of a program are readable. -/
def Program.Readable (p : Program) : Prop :=
  ∀ m ∈ p.members, m.Readable

/-- The part of a body that has been read is readable. -/
structure OpenBody.Readable (b : OpenBody) : Prop where
  exprs : ∀ e ∈ b.exprs, e.Readable
  locals : ∀ m ∈ b.locals, m.Readable

/-- The bodies and the expression at a place are readable. -/
def ProgramPoint.Readable : ProgramPoint → Prop
  | .value _ _ _ reading => reading.Fine
  | .bodyName _ _ outer => ∀ b ∈ outer, b.Readable
  | .bodyOpen inner outer | .body inner outer => inner.Readable ∧ ∀ b ∈ outer, b.Readable
  | .statement inner outer reading =>
    inner.Readable ∧ (∀ b ∈ outer, b.Readable) ∧ reading.Fine
  | _ => True

namespace ProgramReading

/-- What has been read so far is readable. -/
structure Fine (r : ProgramReading) : Prop where
  program : r.program.Readable
  point : r.point.Readable

variable {r r' : ProgramReading} {t : Token} {p : Program}

/-- Nothing has been read at the start of a program. -/
theorem start_fine : start.Fine :=
  ⟨by simp [Program.Readable, start], trivial⟩

/-- A readable member may be added to a readable program. -/
theorem addMember_readable {m : MemberDecl} (hp : p.Readable) (hm : m.Readable) :
    (addMember p m).Readable :=
  List.forall_mem_append.mpr ⟨hp, List.forall_mem_singleton.mpr hm⟩

/-- A readable body is closed to a readable member. -/
theorem close_readable {b : OpenBody} (h : b.Readable) : b.close.Readable :=
  .member _ _ _ _ _ h.exprs h.locals

/-- Closing a readable body keeps readings readable. -/
theorem closeBody_fine {body : OpenBody} {outer : List OpenBody} (hp : p.Readable)
    (hbody : body.Readable) (houter : ∀ b ∈ outer, b.Readable) :
    (closeBody p body outer).Fine := by
  cases outer with
  | nil => exact ⟨addMember_readable hp (close_readable hbody), trivial⟩
  | cons next rest =>
    obtain ⟨hnext, hrest⟩ := List.forall_mem_cons.mp houter
    have hlocals := List.forall_mem_append.mpr
      ⟨hnext.locals, List.forall_mem_singleton.mpr (close_readable hbody)⟩
    exact ⟨hp, ⟨hnext.exprs, hlocals⟩, hrest⟩

/-- A word that opens a declaration keeps readings readable. -/
theorem openItem_fine {start : Position} {k : Keyword} (hp : p.Readable)
    (h : openItem p start k = some r') : r'.Fine := by
  have hnone : ∀ b ∈ ([] : List OpenBody), b.Readable := by simp
  unfold openItem at h
  split at h
  case h_8 =>
    obtain rfl := Option.some.inj h
    exact ⟨hp, ⟨by simp, by simp⟩, hnone⟩
  case h_6 | h_7 =>
    obtain rfl := Option.some.inj h
    exact ⟨hp, hnone⟩
  case h_12 => cases h
  all_goals
    obtain rfl := Option.some.inj h
    exact ⟨hp, trivial⟩

/-- A mark that ends a type keeps readings readable. -/
theorem closeTypeRef_fine {ref : TypeRef} {site : TypeSite} {m : Mark} (hp : p.Readable)
    (h : closeTypeRef p ref site m = some r') : r'.Fine := by
  unfold closeTypeRef at h
  split at h
  case h_6 => cases h
  all_goals
    obtain rfl := Option.some.inj h
    exact ⟨hp, trivial⟩

/-- A token keeps what has been read readable. -/
theorem shift_fine [Text.CharacterNames] (h : r.Fine) (ht : t.WellNamed)
    (hr : r.shift t = some r') : r'.Fine := by
  have hpoint := h.point
  unfold shift at hr
  split at hr
  -- The arms of `shift` that start with an expression or a body in hand are named; in the others
  -- nothing but names and types has been read since the last declaration.
  case h_1 => exact openItem_fine h.program hr
  case h_18 => exact closeTypeRef_fine h.program hr
  case h_20 =>
    obtain rfl := Option.some.inj hr
    exact ⟨h.program, Reading.start_fine⟩
  case h_21 start kind name reading hvalue _ =>
    rw [hvalue] at hpoint
    obtain ⟨e, he, rfl⟩ := Option.map_eq_some_iff.mp hr
    have hreadable := Reading.value?_readable hpoint he
    exact ⟨addMember_readable h.program (.member _ _ _ _ _ (by simpa using hreadable) (by simp)),
      trivial⟩
  case h_22 start kind name reading hvalue _ =>
    rw [hvalue] at hpoint
    obtain ⟨next, hnext, rfl⟩ := Option.map_eq_some_iff.mp hr
    exact ⟨h.program, Reading.shift_fine hpoint ht hnext⟩
  case h_23 start kind outer hname _ =>
    rw [hname] at hpoint
    obtain rfl := Option.some.inj hr
    exact ⟨h.program, ⟨by simp, by simp⟩, hpoint⟩
  case h_24 body outer hopen _ =>
    rw [hopen] at hpoint
    obtain rfl := Option.some.inj hr
    exact ⟨h.program, hpoint⟩
  case h_25 body outer hbody _ =>
    rw [hbody] at hpoint
    obtain rfl := Option.some.inj hr
    exact closeBody_fine h.program hpoint.1 hpoint.2
  case h_26 body outer hbody _ =>
    rw [hbody] at hpoint
    obtain rfl := Option.some.inj hr
    exact ⟨h.program, List.forall_mem_cons.mpr hpoint⟩
  case h_27 body outer hbody _ _ =>
    rw [hbody] at hpoint
    obtain ⟨next, hnext, rfl⟩ := Option.map_eq_some_iff.mp hr
    exact ⟨h.program, hpoint.1, hpoint.2, Reading.shift_fine Reading.start_fine ht hnext⟩
  case h_28 body outer reading hstatement _ =>
    rw [hstatement] at hpoint
    obtain ⟨e, he, rfl⟩ := Option.map_eq_some_iff.mp hr
    obtain ⟨⟨hexprs, hlocals⟩, houter, hreading⟩ := hpoint
    have hlast := Reading.value?_readable hreading he
    have hall := List.forall_mem_append.mpr ⟨hexprs, List.forall_mem_singleton.mpr hlast⟩
    exact ⟨h.program, ⟨hall, hlocals⟩, houter⟩
  case h_29 body outer reading hstatement _ =>
    rw [hstatement] at hpoint
    obtain ⟨next, hnext, rfl⟩ := Option.map_eq_some_iff.mp hr
    exact ⟨h.program, hpoint.1, hpoint.2.1, Reading.shift_fine hpoint.2.2 ht hnext⟩
  case h_30 => cases hr
  all_goals
    obtain rfl := Option.some.inj hr
    exact ⟨h.program, trivial⟩

/-- What has been read as a whole program is readable. -/
theorem value?_readable (h : r.Fine) (hvalue : r.value? = some p) : p.Readable := by
  unfold value? at hvalue
  split at hvalue
  · obtain rfl := Option.some.inj hvalue
    exact h.program
  · cases hvalue

end ProgramReading

/-- A program that is read from source text is readable. -/
theorem Program.parse_readable [Text.CharacterNames] {source : List Char} {p : Program}
    (h : Program.parse source = .ok p) : p.Readable := by
  obtain ⟨r, hfeed, hvalue⟩ := readText_eq_ok h
  have hfine := feed_keeps ProgramReading.shift_fine ProgramReading.start_fine
    (Tokens.ofText_wellNamed .program source) hfeed
  exact ProgramReading.value?_readable hfine hvalue

end AnonymousObjects.Syntax
