import AnonymousObjects.Proofs.Syntax.Readings
import AnonymousObjects.Syntax.Expr.Text
import Mathlib.Data.List.Forall2

/-!
# Expressions without positions

`Expr.erase` drops the positions of an expression. Reading does not depend on positions: rows of
tokens that differ in positions only, or in how literals are spelled, are read into expressions
without a difference in anything else (`feed_alike`).
-/

namespace AnonymousObjects.Syntax

/-- A name without its position. -/
def Name.erase (name : Name) : Name :=
  ⟨name.text, none⟩

namespace Expr

mutual

/-- An expression without its positions. -/
def erase : Expr → Expr
  | identifier name => identifier name.erase
  | memberAccess _ target name => memberAccess none (erase target) name.erase
  | qualifiedName _ left right => qualifiedName none (erase left) right.erase
  | conditionalAccess _ target access => conditionalAccess none (erase target) (erase access)
  | memberBinding _ name => memberBinding none name.erase
  | invocation _ callee arguments => invocation none (erase callee) (eraseAll arguments)
  | literal _ value => literal none value
  | binary _ op left right => binary none op (erase left) (erase right)
  | parenthesized _ inner => parenthesized none (erase inner)
  | creation _ _ initializers => creation none none (eraseInitializers initializers)
  | error _ text => error none text

/-- Expressions without their positions. -/
def eraseAll : List Expr → List Expr
  | [] => []
  | e :: es => erase e :: eraseAll es

/-- Initializers without their positions. -/
def eraseInitializers : List (Initializer Expr) → List (Initializer Expr)
  | [] => []
  | ⟨_, label, value⟩ :: rest =>
    ⟨none, label.map Name.erase, erase value⟩ :: eraseInitializers rest

end

/-- An initializer without its positions. -/
def eraseInitializer (init : Initializer Expr) : Initializer Expr :=
  ⟨none, init.label.map Name.erase, init.value.erase⟩

/-- Positions are forgotten in each expression of a list on its own. -/
theorem eraseAll_eq_map (es : List Expr) : eraseAll es = es.map erase := by
  induction es with
  | nil => rfl
  | cons e es ih => rw [eraseAll, ih, List.map_cons]

/-- Positions are forgotten in each initializer of a list on its own. -/
theorem eraseInitializers_eq_map (inits : List (Initializer Expr)) :
    eraseInitializers inits = inits.map eraseInitializer := by
  induction inits with
  | nil => rfl
  | cons i inits ih => rw [eraseInitializers, ih, List.map_cons, eraseInitializer]

/-- A label is printed the same without its position. -/
theorem labelText_erase (label : Option Name) :
    labelText (label.map Name.erase) = labelText label := by
  cases label <;> rfl

/-- The position of a label is forgotten once and for all. -/
@[simp] theorem label_erase_erase (label : Option Name) :
    (label.map Name.erase).map Name.erase = label.map Name.erase := by
  cases label <;> rfl

mutual

/-- The text of an expression has no positions. -/
theorem toText_erase : ∀ e : Expr, e.erase.toText = e.toText
  | identifier _ | memberBinding _ _ | literal _ _ | error _ _ => rfl
  | memberAccess _ target _ => by rw [erase, toText, toText_erase target]; rfl
  | qualifiedName _ left _ => by rw [erase, toText, toText_erase left]; rfl
  | conditionalAccess _ target access => by
      rw [erase, toText, toText_erase target, toText_erase access, toText]
  | invocation _ callee arguments => by
      rw [erase, toText, toText_erase callee, toTexts_erase arguments, toText]
  | binary _ _ left right => by rw [erase, toText, toText_erase left, toText_erase right, toText]
  | parenthesized _ inner => by rw [erase, toText, toText_erase inner, toText]
  | creation _ _ initializers => by
      rw [erase, toText, initializersToTexts_erase initializers, toText]

/-- Expressions are printed the same without positions. -/
theorem toTexts_erase : ∀ es : List Expr, toTexts (eraseAll es) = toTexts es
  | [] => rfl
  | e :: es => by rw [eraseAll, toTexts, toText_erase e, toTexts_erase es, toTexts]

/-- Initializers are printed the same without positions. -/
theorem initializersToTexts_erase : ∀ inits : List (Initializer Expr),
    initializersToTexts (eraseInitializers inits) = initializersToTexts inits
  | [] => rfl
  | ⟨_, label, value⟩ :: rest => by
      rw [eraseInitializers, initializersToTexts, toText_erase value, labelText_erase,
        initializersToTexts_erase rest, initializersToTexts]

end

mutual

/-- Positions are dropped once. -/
@[simp] theorem erase_erase : ∀ e : Expr, e.erase.erase = e.erase
  | identifier _ | memberBinding _ _ | literal _ _ | error _ _ => rfl
  | memberAccess _ target _ => by rw [erase, erase, erase_erase target]; rfl
  | qualifiedName _ left _ => by rw [erase, erase, erase_erase left]; rfl
  | conditionalAccess _ target access => by
      rw [erase, erase, erase_erase target, erase_erase access]
  | invocation _ callee arguments => by
      rw [erase, erase, erase_erase callee, eraseAll_eraseAll arguments]
  | binary _ _ left right => by rw [erase, erase, erase_erase left, erase_erase right]
  | parenthesized _ inner => by rw [erase, erase, erase_erase inner]
  | creation _ _ initializers => by
      rw [erase, erase, eraseInitializers_eraseInitializers initializers]

/-- The positions of expressions are forgotten once and for all. -/
theorem eraseAll_eraseAll : ∀ es : List Expr, eraseAll (eraseAll es) = eraseAll es
  | [] => rfl
  | e :: es => by rw [eraseAll, eraseAll, erase_erase e, eraseAll_eraseAll es]

/-- The positions of initializers are forgotten once and for all. -/
theorem eraseInitializers_eraseInitializers : ∀ inits : List (Initializer Expr),
    eraseInitializers (eraseInitializers inits) = eraseInitializers inits
  | [] => rfl
  | ⟨_, label, value⟩ :: rest => by
      rw [eraseInitializers, eraseInitializers, erase_erase value, label_erase_erase,
        eraseInitializers_eraseInitializers rest]

end

/-- A path is one without positions too. -/
@[simp] theorem erase_isPath (e : Expr) : e.erase.isPath = e.isPath := by
  cases e <;> rfl

/-- Postfix operations that differ in positions only do so inside conditional accesses. -/
theorem erase_extend {operation operation' : Expr → Expr}
    (h : ∀ e : Expr, (operation e).erase = (operation' e.erase).erase) (e : Expr) :
    (e.extend operation).erase = (e.erase.extend operation').erase := by
  fun_induction extend operation e with
  | case1 p target access ih => simp [erase, extend, ih]
  | case2 e hne =>
    rw [h e]
    cases e with
    | conditionalAccess p target access => exact absurd rfl (hne p target access)
    | _ => rfl

end Expr

namespace Reading

/-- An open bracket without positions. -/
def Frame.erase : Frame → Frame
  | .paren left _ => .paren (left.map Expr.erase) .start
  | .argument left callee before =>
    .argument (left.map Expr.erase) callee.erase (before.map Expr.erase)
  | .initializer left _ before label =>
    .initializer (left.map Expr.erase) .start (before.map Expr.eraseInitializer)
      (label.map Name.erase)

/-- A place without positions. -/
def Point.erase : Point → Point
  | .operand => .operand
  | .firstArgument => .firstArgument
  | .initializer => .initializer
  | .new _ => .new .start
  | .dot target => .dot target.erase
  | .questionDot target => .questionDot target.erase
  | .colons path => .colons path.erase
  | .complete chain => .complete chain.erase

/-- A reading without positions. -/
def erase (r : Reading) : Reading :=
  ⟨r.frames.map Frame.erase, r.left.map Expr.erase, r.point.erase⟩

/-- A sum without positions is made of sides without positions. -/
theorem erase_sum (left : Option Expr) (operand : Expr) :
    (sum (left.map Expr.erase) operand.erase).erase = (sum left operand).erase := by
  cases left <;> simp [sum, Expr.erase]

/-- An initializer without positions is made of a label and a value without positions. -/
theorem erase_initializerOf (label : Option Name) (value : Expr) :
    Expr.eraseInitializer (initializerOf label value) =
      ⟨none, label.map Name.erase, value.erase⟩ := by
  cases label <;> rfl

/-- A creation without positions is made of initializers without positions. -/
theorem erase_creation (new : Position) (inits : List (Initializer Expr)) :
    (creation new inits).erase = .creation none none (inits.map Expr.eraseInitializer) := by
  rw [creation, Expr.erase, Expr.eraseInitializers_eq_map]

/-- The position of a name is forgotten once and for all, as an equation of functions. -/
@[simp] theorem nameErase_comp : Name.erase ∘ Name.erase = Name.erase :=
  rfl

/-- The positions of an expression are forgotten once and for all, as an equation of functions. -/
@[simp] theorem exprErase_comp : Expr.erase ∘ Expr.erase = Expr.erase :=
  funext Expr.erase_erase

/-- The positions of an initializer are forgotten once and for all, as an equation of functions. -/
@[simp] theorem initializerErase_comp :
    Expr.eraseInitializer ∘ Expr.eraseInitializer = Expr.eraseInitializer := by
  funext i
  simp [Expr.eraseInitializer]

/-- The positions of an open bracket are forgotten once and for all, as an equation of functions. -/
@[simp] theorem frameErase_comp : Frame.erase ∘ Frame.erase = Frame.erase := by
  funext f
  cases f <;> simp [Frame.erase]

/-- A member access without positions is made on a target without positions. -/
theorem erase_extend_access {name name' : Name} (h : name'.erase = name.erase) (target : Expr) :
    (target.erase.extend (access name')).erase = (target.extend (access name)).erase := by
  refine (Expr.erase_extend (fun e => ?_) target).symm
  simp [access, Expr.erase, h]

/-- A conditional access without positions is made on a target without positions. -/
theorem erase_extend_conditional {name name' : Name} (h : name'.erase = name.erase)
    (target : Expr) :
    (target.erase.extend (conditional name')).erase =
      (target.extend (conditional name)).erase := by
  refine (Expr.erase_extend (fun e => ?_) target).symm
  simp [conditional, Expr.erase, h]

/-- A call without positions is made of a callee and arguments without positions. -/
theorem erase_extend_call (arguments arguments' : List Expr)
    (h : arguments'.map Expr.erase = arguments.map Expr.erase) (callee : Expr) :
    (callee.erase.extend (call arguments')).erase = (callee.extend (call arguments)).erase := by
  refine (Expr.erase_extend (fun e => ?_) callee).symm
  simp [call, Expr.erase, Expr.eraseAll_eq_map, h]

/-- A token is shifted in a reading without positions as in the reading. -/
theorem openOperand_erase [Text.CharacterNames] (r : Reading) (t : Token) :
    (r.erase.openOperand t).map erase = (r.openOperand t).map erase := by
  unfold openOperand
  split <;> simp [erase, Frame.erase]

/-- A mark after an operand is read the same without positions. -/
theorem afterOperand_erase (r : Reading) (operand : Expr) (m : Mark) :
    (r.erase.afterOperand operand.erase m).map erase = (r.afterOperand operand m).map erase := by
  obtain ⟨frames, left, point⟩ := r
  cases m with
  | plus => simp [afterOperand, erase, erase_sum]
  | dot | questionDot => simp [afterOperand, erase, Point.erase]
  | colons =>
      simp only [afterOperand, Expr.erase_isPath]
      split <;> simp [erase, Point.erase]
  | openParen => simp [afterOperand, erase, Frame.erase]
  | star | openBrace | semicolon | colon => rfl
  | equal =>
      cases frames with
      | nil => rfl
      | cons frame outer =>
          cases frame with
          | paren | argument => rfl
          | initializer first new before label =>
              cases label with
              | some label => rfl
              | none =>
                  cases left with
                  | some left => rfl
                  | none =>
                      cases operand with
                      -- Only an identifier that is the whole initializer becomes a label, with or
                      -- without positions.
                      | identifier name =>
                          simp [afterOperand, erase, Frame.erase, Expr.erase]
                          rfl
                      | _ => rfl
  | closeParen =>
      cases frames with
      | nil => rfl
      | cons frame outer =>
          cases frame with
          | paren => simp [afterOperand, erase, Frame.erase, Point.erase, Expr.erase, erase_sum]
          | argument first callee before =>
              have hcall := erase_extend_call (before ++ [sum left operand])
                (before.map Expr.erase ++ [sum (left.map Expr.erase) operand.erase])
                (by simp [erase_sum]) callee
              simp [afterOperand, erase, Frame.erase, Point.erase, hcall]
          | initializer => rfl
  | comma =>
      cases frames with
      | nil => rfl
      | cons frame outer =>
          cases frame with
          | paren => rfl
          | argument => simp [afterOperand, erase, Frame.erase, Point.erase, erase_sum]
          | initializer =>
              simp [afterOperand, erase, Frame.erase, Point.erase, erase_sum, erase_initializerOf]
  | closeBrace =>
      cases frames with
      | nil => rfl
      | cons frame outer =>
          cases frame with
          | paren | argument => rfl
          | initializer =>
              simp [afterOperand, erase, Frame.erase, Point.erase, erase_creation, erase_sum,
                erase_initializerOf]

/-- A token is shifted in a reading without positions as in the reading. -/
theorem shift_erase [Text.CharacterNames] (r : Reading) (t : Token) :
    (r.erase.shift t).map erase = (r.shift t).map erase := by
  obtain ⟨frames, left, point⟩ := r
  cases point with
  | operand => exact openOperand_erase ⟨frames, left, .operand⟩ t
  | firstArgument =>
      -- Any other token than the closing one begins an operand.
      have hopen := openOperand_erase ⟨frames, left, .firstArgument⟩ t
      obtain ⟨kind, text, position⟩ := t
      cases kind with
      | mark m =>
          cases m with
          | closeParen =>
              cases frames with
              | nil => rfl
              | cons frame outer =>
                  cases frame with
                  | argument first callee before =>
                      have hcall :=
                        erase_extend_call before (before.map Expr.erase) (by simp) callee
                      simp [shift, erase, Frame.erase, Point.erase, hcall]
                  | _ => rfl
          | _ => exact hopen
      | _ => exact hopen
  | initializer =>
      have hopen := openOperand_erase ⟨frames, left, .initializer⟩ t
      obtain ⟨kind, text, position⟩ := t
      cases kind with
      | mark m =>
          cases m with
          | closeBrace =>
              cases frames with
              | nil => rfl
              | cons frame outer =>
                  cases frame with
                  | initializer => simp [shift, erase, Frame.erase, Point.erase, erase_creation]
                  | _ => rfl
          | _ => exact hopen
      | _ => exact hopen
  | new start =>
      obtain ⟨kind, text, position⟩ := t
      cases kind with
      | mark m => cases m <;> simp [shift, erase, Frame.erase, Point.erase]
      | _ => rfl
  | dot target =>
      obtain ⟨kind, text, position⟩ := t
      cases kind with
      | name => simp [shift, erase, Point.erase, erase_extend_access rfl]
      | _ => rfl
  | questionDot target =>
      obtain ⟨kind, text, position⟩ := t
      cases kind with
      | name => simp [shift, erase, Point.erase, erase_extend_conditional rfl]
      | _ => rfl
  | colons path =>
      obtain ⟨kind, text, position⟩ := t
      cases kind with
      | name => simp [shift, erase, Point.erase, Expr.erase]
      | _ => rfl
  | complete operand =>
      obtain ⟨kind, text, position⟩ := t
      cases kind with
      | mark m => exact afterOperand_erase ⟨frames, left, .complete operand⟩ operand m
      | _ => rfl

/-- The value of a reading without positions. -/
theorem value?_erase (r : Reading) :
    r.erase.value?.map Expr.erase = r.value?.map Expr.erase := by
  obtain ⟨frames, left, point⟩ := r
  cases point with
  | complete operand => cases frames <;> simp [value?, erase, Point.erase, erase_sum]
  | _ => cases frames <;> rfl

end Reading

/-! ## Tokens that are read alike -/

/-- Tokens that a reading cannot tell apart but for their positions: of one class, with one name or
one literal. -/
structure Token.Alike [Text.CharacterNames] (t u : Token) : Prop where
  kind : t.kind = u.kind
  name : t.kind = .name → t.text = u.text
  literal : t.literal? = u.literal?

namespace Reading

variable {r r' : Reading} {t u : Token}

/-- Tokens that differ in their places open the same operands but for positions. -/
theorem openOperand_alike [Text.CharacterNames] (h : t.Alike u) :
    (r.openOperand t).map erase = (r.openOperand u).map erase := by
  unfold openOperand
  rw [← h.kind, ← h.literal]
  split
  · next hname => simp [erase, Point.erase, Expr.erase, nameOf, Name.erase, h.name hname]
  · simp [erase, Frame.erase]
  · simp [erase, Point.erase]
  · simp [erase, Point.erase, Expr.erase]
  · rfl

/-- Tokens that are read alike are shifted alike. -/
theorem shift_alike [Text.CharacterNames] (r : Reading) (h : t.Alike u) :
    (r.shift t).map erase = (r.shift u).map erase := by
  have hopen := openOperand_alike (r := r) h
  have hname (hk : t.kind = .name) : (nameOf u).erase = (nameOf t).erase := by
    simp [nameOf, Name.erase, h.name hk]
  unfold shift
  -- The arms of `shift` look at kinds alone; the text of a token is used where it becomes a name.
  rw [← h.kind]
  split
  · exact hopen
  · rfl
  · exact hopen
  · rfl
  · exact hopen
  · rfl
  · next target _ hk =>
    have htarget := (erase_extend_access (hname hk) target).symm.trans
      (erase_extend_access rfl target)
    simp [erase, Point.erase, htarget]
  · next target _ hk =>
    have htarget := (erase_extend_conditional (hname hk) target).symm.trans
      (erase_extend_conditional rfl target)
    simp [erase, Point.erase, htarget]
  · next path _ hk => simp [erase, Point.erase, Expr.erase, hname hk]
  · rfl
  · rfl

/-- Rows of tokens that are read alike are read into expressions that differ in positions only. -/
theorem feed_alike [Text.CharacterNames] {ts us : List Token} (h : List.Forall₂ Token.Alike ts us)
    (hr : r.erase = r'.erase) {q : Reading} (hfeed : feed shift r ts = .ok q) :
    ∃ q', feed shift r' us = .ok q' ∧ q.erase = q'.erase := by
  induction h generalizing r r' with
  | nil =>
    obtain rfl : r = q := Except.ok.inj hfeed
    exact ⟨r', rfl, hr⟩
  | @cons t u ts us htu _ ih =>
    have hshift : (r.shift t).map erase = (r'.shift u).map erase := by
      rw [← shift_erase, hr, shift_erase, shift_alike r' htu]
    rw [feed] at hfeed ⊢
    cases ht : r.shift t with
    | none => simp [ht] at hfeed
    | some next =>
        rw [ht] at hshift hfeed
        obtain ⟨next', hnext', hsame⟩ := Option.map_eq_some_iff.mp hshift.symm
        rw [hnext']
        exact ih hsame.symm hfeed

end Reading

end AnonymousObjects.Syntax
