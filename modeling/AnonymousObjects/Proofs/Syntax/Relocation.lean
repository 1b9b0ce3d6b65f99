import AnonymousObjects.Proofs.Syntax.Printing.Positions
import AnonymousObjects.Syntax.Parse

/-!
# Reading takes positions as they are

`relocate` moves the positions in tokens, expressions and programs. A token that is moved is added
to a reading that is moved as it was before (`ProgramReading.shift_relocate`), so a row of tokens
that is moved is read into the same program, moved alike (`ProgramReading.feed_relocate`).
-/

namespace AnonymousObjects.Syntax

variable (f : Position → Position)

/-! ## Moving positions -/

/-- A token that is moved. -/
def Token.relocate (t : Token) : Token :=
  { t with position := f t.position }

/-- A name that is moved. -/
def Name.relocate (name : Name) : Name :=
  ⟨name.text, name.position.map f⟩

namespace Expr

mutual

/-- An expression that is moved. -/
def relocate : Expr → Expr
  | identifier name => identifier (name.relocate f)
  | memberAccess p target name => memberAccess (p.map f) (relocate target) (name.relocate f)
  | qualifiedName p left right => qualifiedName (p.map f) (relocate left) (right.relocate f)
  | conditionalAccess p target access =>
    conditionalAccess (p.map f) (relocate target) (relocate access)
  | memberBinding p name => memberBinding (p.map f) (name.relocate f)
  | invocation p callee arguments => invocation (p.map f) (relocate callee) (relocateAll arguments)
  | literal p value => literal (p.map f) value
  | binary p op left right => binary (p.map f) op (relocate left) (relocate right)
  | parenthesized p inner => parenthesized (p.map f) (relocate inner)
  | creation p new initializers =>
    creation (p.map f) (new.map f) (relocateInitializers initializers)
  | error p text => error (p.map f) text

/-- Expressions that are moved. -/
def relocateAll : List Expr → List Expr
  | [] => []
  | e :: es => relocate e :: relocateAll es

/-- Initializers that are moved. -/
def relocateInitializers : List (Initializer Expr) → List (Initializer Expr)
  | [] => []
  | ⟨p, label, value⟩ :: rest =>
    ⟨p.map f, label.map (Name.relocate f), relocate value⟩ :: relocateInitializers rest

end

/-- An initializer that is moved. -/
def relocateInitializer (init : Initializer Expr) : Initializer Expr :=
  ⟨init.position.map f, init.label.map (Name.relocate f), init.value.relocate f⟩

/-- Each expression of a list is relocated on its own. -/
theorem relocateAll_eq_map (es : List Expr) : relocateAll f es = es.map (relocate f) := by
  induction es with
  | nil => rfl
  | cons e es ih => rw [relocateAll, ih, List.map_cons]

/-- Each initializer of a list is relocated on its own. -/
theorem relocateInitializers_eq_map (inits : List (Initializer Expr)) :
    relocateInitializers f inits = inits.map (relocateInitializer f) := by
  induction inits with
  | nil => rfl
  | cons i inits ih => rw [relocateInitializers, ih, List.map_cons, relocateInitializer]

/-- A relocated expression starts where its start is relocated to. -/
@[simp] theorem position_relocate (e : Expr) : (e.relocate f).position = e.position.map f := by
  cases e <;> rfl

/-- A relocated expression is a path where it was one. -/
@[simp] theorem isPath_relocate (e : Expr) : (e.relocate f).isPath = e.isPath := by
  cases e <;> rfl

/-- A postfix operation that is moved belongs to the moved expression. -/
theorem relocate_extend {operation operation' : Expr → Expr}
    (h : ∀ e : Expr, (operation e).relocate f = operation' (e.relocate f)) (e : Expr) :
    (e.extend operation).relocate f = (e.relocate f).extend operation' := by
  fun_induction extend operation e with
  | case1 p target access ih => simp [relocate, extend, ih]
  | case2 e hne =>
    rw [h e]
    cases e with
    | conditionalAccess p target access => exact absurd rfl (hne p target access)
    | _ => rfl

end Expr

/-- A type reference that is moved. -/
def TypeRef.relocate (r : TypeRef) : TypeRef :=
  { r with position := f r.position }

/-- A field that is moved. -/
def FieldDecl.relocate (d : FieldDecl) : FieldDecl :=
  { d with position := f d.position, type := d.type.relocate f }

/-- A type declaration that is moved. -/
def TypeDecl.relocate (d : TypeDecl) : TypeDecl :=
  { d with position := f d.position, fields := d.fields.map (FieldDecl.relocate f) }

/-- A global that is moved. -/
def GlobalDecl.relocate (d : GlobalDecl) : GlobalDecl :=
  { d with position := f d.position, type := d.type.relocate f }

/-- A parameter that is moved. -/
def ParamDecl.relocate (d : ParamDecl) : ParamDecl :=
  { d with type := d.type.relocate f }

/-- A function that is moved. -/
def FunctionDecl.relocate (d : FunctionDecl) : FunctionDecl :=
  { d with
    position := f d.position
    params := d.params.map (ParamDecl.relocate f)
    result := d.result.relocate f }

namespace MemberDecl

mutual

/-- A member that is moved. -/
def relocate : MemberDecl → MemberDecl
  | ⟨p, kind, name, exprs, locals⟩ =>
    ⟨f p, kind, name, exprs.map (Expr.relocate f), relocateAll locals⟩

/-- Members that are moved. -/
def relocateAll : List MemberDecl → List MemberDecl
  | [] => []
  | m :: ms => relocate m :: relocateAll ms

end

/-- Each member of a list is relocated on its own. -/
theorem relocateAll_eq_map (ms : List MemberDecl) : relocateAll f ms = ms.map (relocate f) := by
  induction ms with
  | nil => rfl
  | cons m ms ih => rw [relocateAll, ih, List.map_cons]

end MemberDecl

/-- A program that is moved. -/
def Program.relocate (p : Program) : Program where
  types := p.types.map (TypeDecl.relocate f)
  globals := p.globals.map (GlobalDecl.relocate f)
  functions := p.functions.map (FunctionDecl.relocate f)
  members := p.members.map (MemberDecl.relocate f)

/-! ## Programs without positions -/

section

variable (g : Position → Position)

/-- Relocating a name twice relocates it by both. -/
@[simp] theorem Name.relocate_relocate (name : Name) :
    (name.relocate f).relocate g = name.relocate (g ∘ f) := by
  simp [relocate]

namespace Expr

mutual

/-- Moving positions twice is moving them once. -/
theorem relocate_relocate : ∀ e : Expr, (e.relocate f).relocate g = e.relocate (g ∘ f)
  | identifier _ | memberBinding _ _ | literal _ _ | error _ _ => by simp [relocate]
  | memberAccess _ target _ | qualifiedName _ target _ => by
      simp [relocate, relocate_relocate target]
  | conditionalAccess _ target access => by
      simp [relocate, relocate_relocate target, relocate_relocate access]
  | invocation _ callee arguments => by
      simp [relocate, relocate_relocate callee, relocateAll_relocateAll arguments]
  | binary _ _ left right => by
      simp [relocate, relocate_relocate left, relocate_relocate right]
  | parenthesized _ inner => by simp [relocate, relocate_relocate inner]
  | creation _ _ initializers => by
      simp [relocate, relocateInitializers_relocateInitializers initializers]

/-- Relocating expressions twice relocates them by both. -/
theorem relocateAll_relocateAll : ∀ es : List Expr,
    relocateAll g (relocateAll f es) = relocateAll (g ∘ f) es
  | [] => rfl
  | e :: es => by simp [relocateAll, relocate_relocate e, relocateAll_relocateAll es]

/-- Relocating initializers twice relocates them by both. -/
theorem relocateInitializers_relocateInitializers : ∀ inits : List (Initializer Expr),
    relocateInitializers g (relocateInitializers f inits) = relocateInitializers (g ∘ f) inits
  | [] => rfl
  | ⟨_, label, value⟩ :: rest => by
      cases label <;>
        simp [relocateInitializers, relocate_relocate value,
          relocateInitializers_relocateInitializers rest]

end

end Expr

namespace MemberDecl

mutual

/-- Relocating a member twice relocates it by both. -/
theorem relocate_relocate : ∀ m : MemberDecl, (m.relocate f).relocate g = m.relocate (g ∘ f)
  | ⟨_, _, _, exprs, locals⟩ => by
      simp [relocate, Function.comp_def, Expr.relocate_relocate, relocateAll_relocateAll locals]

/-- Relocating members twice relocates them by both. -/
theorem relocateAll_relocateAll : ∀ ms : List MemberDecl,
    relocateAll g (relocateAll f ms) = relocateAll (g ∘ f) ms
  | [] => rfl
  | m :: ms => by simp [relocateAll, relocate_relocate m, relocateAll_relocateAll ms]

end

end MemberDecl

/-- Moving the positions of a program twice is moving them once. -/
theorem Program.relocate_relocate (p : Program) :
    (p.relocate f).relocate g = p.relocate (g ∘ f) := by
  simp [relocate, Function.comp_def, TypeDecl.relocate, FieldDecl.relocate, TypeRef.relocate,
    GlobalDecl.relocate, FunctionDecl.relocate, ParamDecl.relocate, MemberDecl.relocate_relocate]

/-- A program without its positions: everything in it is placed where texts start. -/
def Program.erase (p : Program) : Program :=
  p.relocate fun _ => .start

/-- Nothing else than positions is moved. -/
@[simp] theorem Program.erase_relocate (p : Program) : (p.relocate f).erase = p.erase :=
  p.relocate_relocate f _

end

/-! ## Readings of expressions -/

/-- A relocated token is of the same kind. -/
@[simp] theorem Token.kind_relocate (t : Token) : (t.relocate f).kind = t.kind := rfl

/-- A relocated token has the same text. -/
@[simp] theorem Token.text_relocate (t : Token) : (t.relocate f).text = t.text := rfl

/-- A relocated token stands where its position is relocated to. -/
@[simp] theorem Token.position_relocate (t : Token) : (t.relocate f).position = f t.position := rfl

/-- The value of a literal does not depend on its place. -/
@[simp] theorem Token.literal?_relocate [Text.CharacterNames] (t : Token) :
    (t.relocate f).literal? = t.literal? := rfl

namespace Reading

/-- An open bracket that is moved. -/
def Frame.relocate : Frame → Frame
  | .paren left start => .paren (left.map (Expr.relocate f)) (f start)
  | .argument left callee before =>
    .argument (left.map (Expr.relocate f)) (callee.relocate f) (before.map (Expr.relocate f))
  | .initializer left new before label =>
    .initializer (left.map (Expr.relocate f)) (f new) (before.map (Expr.relocateInitializer f))
      (label.map (Name.relocate f))

/-- A place that is moved. -/
def Point.relocate : Point → Point
  | .operand => .operand
  | .firstArgument => .firstArgument
  | .initializer => .initializer
  | .new start => .new (f start)
  | .dot target => .dot (target.relocate f)
  | .questionDot target => .questionDot (target.relocate f)
  | .colons path => .colons (path.relocate f)
  | .complete chain => .complete (chain.relocate f)

/-- A reading that is moved. -/
def relocate (r : Reading) : Reading :=
  ⟨r.frames.map (Frame.relocate f), r.left.map (Expr.relocate f), r.point.relocate f⟩

/-- A relocated token makes the relocated name. -/
@[simp] theorem relocate_nameOf (t : Token) : (nameOf t).relocate f = nameOf (t.relocate f) :=
  rfl

/-- A sum of relocated sides is the relocated sum. -/
@[simp] theorem relocate_sum (left : Option Expr) (operand : Expr) :
    (sum left operand).relocate f = sum (left.map (Expr.relocate f)) (operand.relocate f) := by
  cases left <;> simp [sum, Expr.relocate]

/-- An initializer of relocated parts is the relocated initializer. -/
@[simp] theorem relocate_initializerOf (label : Option Name) (value : Expr) :
    Expr.relocateInitializer f (initializerOf label value) =
      initializerOf (label.map (Name.relocate f)) (value.relocate f) := by
  cases label <;> simp [initializerOf, Expr.relocateInitializer, Name.relocate]

/-- A creation of relocated initializers is the relocated creation. -/
@[simp] theorem relocate_creation (new : Position) (inits : List (Initializer Expr)) :
    (creation new inits).relocate f =
      creation (f new) (inits.map (Expr.relocateInitializer f)) := by
  simp [creation, Expr.relocate, Expr.relocateInitializers_eq_map]

/-- A member access on a relocated target is the relocated access. -/
@[simp] theorem relocate_extend_access (name : Name) (target : Expr) :
    (target.extend (access name)).relocate f =
      (target.relocate f).extend (access (name.relocate f)) :=
  Expr.relocate_extend f (fun e => by simp [access, Expr.relocate]) target

/-- A conditional access on a relocated target is the relocated access. -/
@[simp] theorem relocate_extend_conditional (name : Name) (target : Expr) :
    (target.extend (conditional name)).relocate f =
      (target.relocate f).extend (conditional (name.relocate f)) :=
  Expr.relocate_extend f (fun e => by simp [conditional, Expr.relocate, Name.relocate]) target

/-- A call of relocated parts is the relocated call. -/
@[simp] theorem relocate_extend_call (arguments : List Expr) (callee : Expr) :
    (callee.extend (call arguments)).relocate f =
      (callee.relocate f).extend (call (arguments.map (Expr.relocate f))) :=
  Expr.relocate_extend f (fun e => by simp [call, Expr.relocate, Expr.relocateAll_eq_map]) callee

/-- A relocated token opens the relocated operand. -/
theorem openOperand_relocate [Text.CharacterNames] (r : Reading) (t : Token) :
    (r.relocate f).openOperand (t.relocate f) = (r.openOperand t).map (relocate f) := by
  unfold openOperand
  simp only [Token.kind_relocate, Token.literal?_relocate]
  split <;> simp [relocate, Point.relocate, Frame.relocate, Expr.relocate]

/-- A mark after a relocated operand is read to the relocated reading. -/
theorem afterOperand_relocate (r : Reading) (operand : Expr) (m : Mark) :
    (r.relocate f).afterOperand (operand.relocate f) m =
      (r.afterOperand operand m).map (relocate f) := by
  obtain ⟨frames, left, point⟩ := r
  cases m with
  | plus | dot | questionDot | openParen =>
      simp [afterOperand, relocate, Point.relocate, Frame.relocate]
  | colons =>
      simp only [afterOperand, Expr.isPath_relocate]
      split <;> simp [relocate, Point.relocate]
  | star | openBrace | semicolon | colon => rfl
  | equal =>
      cases frames with
      | nil => rfl
      | cons frame outer =>
          cases frame with
          | paren | argument => rfl
          | initializer first new before label =>
              cases label with
              | some label => rfl
              | none =>
                  cases left with
                  | some left => rfl
                  | none => cases operand <;> rfl
  | closeParen | comma | closeBrace =>
      cases frames with
      | nil => rfl
      | cons frame outer =>
          cases frame <;>
            simp [afterOperand, relocate, Frame.relocate, Point.relocate, Expr.relocate]

/-- A token that is moved is added to a reading that is moved as it was before. -/
theorem shift_relocate [Text.CharacterNames] (r : Reading) (t : Token) :
    (r.relocate f).shift (t.relocate f) = (r.shift t).map (relocate f) := by
  have hopen := openOperand_relocate f r t
  obtain ⟨frames, left, point⟩ := r
  cases point with
  | operand => exact hopen
  | firstArgument =>
      obtain ⟨kind, text, position⟩ := t
      cases kind with
      | mark m =>
          cases m with
          | closeParen =>
              cases frames with
              | nil => rfl
              | cons frame outer =>
                  cases frame <;>
                    simp [shift, relocate, Token.relocate, Frame.relocate, Point.relocate]
          | _ => exact hopen
      | _ => exact hopen
  | initializer =>
      obtain ⟨kind, text, position⟩ := t
      cases kind with
      | mark m =>
          cases m with
          | closeBrace =>
              cases frames with
              | nil => rfl
              | cons frame outer =>
                  cases frame <;>
                    simp [shift, relocate, Token.relocate, Frame.relocate, Point.relocate]
          | _ => exact hopen
      | _ => exact hopen
  | new start =>
      obtain ⟨kind, text, position⟩ := t
      cases kind with
      | mark m => cases m <;> rfl
      | _ => rfl
  | dot target | questionDot target | colons path =>
      obtain ⟨kind, text, position⟩ := t
      cases kind with
      | name => simp [shift, relocate, Token.relocate, Point.relocate, Expr.relocate]
      | _ => rfl
  | complete operand =>
      obtain ⟨kind, text, position⟩ := t
      cases kind with
      | mark m => exact afterOperand_relocate f ⟨frames, left, .complete operand⟩ operand m
      | _ => rfl

/-- A relocated reading is complete where it was, with the relocated expression. -/
theorem value?_relocate (r : Reading) :
    (r.relocate f).value? = r.value?.map (Expr.relocate f) := by
  obtain ⟨frames, left, point⟩ := r
  cases frames with
  | nil => cases point <;> simp [value?, relocate, Point.relocate]
  | cons => rfl

end Reading

/-! ## Readings of programs -/

/-- An open type that is moved. -/
def OpenType.relocate (t : OpenType) : OpenType :=
  { t with position := f t.position, fields := t.fields.map (FieldDecl.relocate f) }

/-- An open function that is moved. -/
def OpenFunction.relocate (o : OpenFunction) : OpenFunction :=
  { o with position := f o.position, params := o.params.map (ParamDecl.relocate f) }

/-- An open body that is moved. -/
def OpenBody.relocate (b : OpenBody) : OpenBody :=
  { b with
    position := f b.position
    exprs := b.exprs.map (Expr.relocate f)
    locals := b.locals.map (MemberDecl.relocate f) }

/-- What a type reference belongs to, moved. -/
def TypeSite.relocate : TypeSite → TypeSite
  | .field owner isStatic name => .field (owner.relocate f) isStatic (name.relocate f)
  | .global name => .global (name.relocate f)
  | .param function name => .param (function.relocate f) (name.relocate f)
  | .result function => .result (function.relocate f)

/-- A place in a program that is moved. -/
def ProgramPoint.relocate : ProgramPoint → ProgramPoint
  | .item => .item
  | .afterRef start => .afterRef (f start)
  | .typeName start kind => .typeName (f start) kind
  | .typeOpen type => .typeOpen (type.relocate f)
  | .typeBody type => .typeBody (type.relocate f)
  | .fieldName type => .fieldName (type.relocate f)
  | .globalName => .globalName
  | .functionName => .functionName
  | .functionOpen function => .functionOpen (function.relocate f)
  | .firstParam function => .firstParam (function.relocate f)
  | .paramName function => .paramName (function.relocate f)
  | .typeColon site => .typeColon (site.relocate f)
  | .typeRef site => .typeRef (site.relocate f)
  | .stars site ref => .stars (site.relocate f) (ref.relocate f)
  | .valueName start kind => .valueName (f start) kind
  | .valueEqual start kind name => .valueEqual (f start) kind name
  | .value start kind name reading => .value (f start) kind name (reading.relocate f)
  | .bodyName start kind outer => .bodyName (f start) kind (outer.map (OpenBody.relocate f))
  | .bodyOpen inner outer => .bodyOpen (inner.relocate f) (outer.map (OpenBody.relocate f))
  | .body inner outer => .body (inner.relocate f) (outer.map (OpenBody.relocate f))
  | .statement inner outer reading =>
    .statement (inner.relocate f) (outer.map (OpenBody.relocate f)) (reading.relocate f)

namespace ProgramReading

/-- A reading of a program that is moved. -/
def relocate (r : ProgramReading) : ProgramReading :=
  ⟨r.program.relocate f, r.point.relocate f⟩

/-- A relocated word opens the relocated declaration. -/
theorem openItem_relocate (p : Program) (start : Position) (k : Keyword) :
    openItem (p.relocate f) (f start) k = (openItem p start k).map (relocate f) := by
  cases k <;> rfl

/-- A mark ends a relocated type as it ended the type. -/
theorem closeTypeRef_relocate (p : Program) (ref : TypeRef) (site : TypeSite) (m : Mark) :
    closeTypeRef (p.relocate f) (ref.relocate f) (site.relocate f) m =
      (closeTypeRef p ref site m).map (relocate f) := by
  cases site <;> cases m <;>
    simp [closeTypeRef, relocate, TypeSite.relocate, ProgramPoint.relocate, OpenType.relocate,
      OpenFunction.relocate, Program.relocate, addGlobal, addFunction, FieldDecl.relocate,
      GlobalDecl.relocate, ParamDecl.relocate, FunctionDecl.relocate]

/-- A relocated body is closed to the relocated member. -/
theorem closeBody_relocate (p : Program) (body : OpenBody) (outer : List OpenBody) :
    closeBody (p.relocate f) (body.relocate f) (outer.map (OpenBody.relocate f)) =
      (closeBody p body outer).relocate f := by
  cases outer <;>
    simp [closeBody, relocate, ProgramPoint.relocate, Program.relocate, addMember, OpenBody.close,
      OpenBody.relocate, MemberDecl.relocate, MemberDecl.relocateAll_eq_map]

/-- A token of an expression in a declaration. -/
theorem shift_expr_relocate [Text.CharacterNames] (program : Program) (reading : Reading)
    (t : Token) (point point' : Reading → ProgramPoint)
    (h : ∀ next, (point next).relocate f = point' (next.relocate f)) :
    (((reading.relocate f).shift (t.relocate f)).map fun next =>
        (⟨program.relocate f, point' next⟩ : ProgramReading)) =
      ((reading.shift t).map fun next => ⟨program, point next⟩).map (relocate f) := by
  rw [reading.shift_relocate]
  cases reading.shift t <;> simp [relocate, h]

/-- The end of an expression in a declaration. -/
theorem value?_expr_relocate (reading : Reading) {g g' : Expr → ProgramReading}
    (h : ∀ e, (g e).relocate f = g' (e.relocate f)) :
    (reading.relocate f).value?.map g' = (reading.value?.map g).map (relocate f) := by
  rw [reading.value?_relocate]
  cases reading.value? <;> simp [h]

/-- A token that is moved is added to a reading that is moved as it was before. -/
theorem shift_relocate [Text.CharacterNames] (r : ProgramReading) (t : Token) :
    (r.relocate f).shift (t.relocate f) = (r.shift t).map (relocate f) := by
  obtain ⟨program, point⟩ := r
  obtain ⟨kind, text, position⟩ := t
  cases point with
  | item =>
      cases kind with
      | keyword k => exact openItem_relocate f program position k
      | _ => rfl
  | afterRef start =>
      cases kind with
      | keyword k => cases k <;> rfl
      | _ => rfl
  | typeBody type =>
      cases kind with
      | keyword k => cases k <;> rfl
      | mark m =>
          cases m with
          | closeBrace =>
              simp [shift, relocate, ProgramPoint.relocate, Program.relocate, addType,
                OpenType.relocate, OpenType.close, TypeDecl.relocate, Token.relocate]
          | _ => rfl
      | _ => rfl
  -- Points that wait for a name, then points that wait for a mark.
  | typeName | fieldName | globalName | functionName | paramName | typeRef | valueName
  | bodyName => cases kind <;> rfl
  | typeOpen | functionOpen | firstParam | typeColon | valueEqual | bodyOpen =>
      cases kind with
      | mark m => cases m <;> rfl
      | _ => rfl
  | stars site ref =>
      cases kind with
      | mark m =>
          cases m with
          | star => rfl
          | _ => exact closeTypeRef_relocate f program ref site _
      | _ => rfl
  | value start kind' name reading =>
      have hnext := shift_expr_relocate f program reading ⟨kind, text, position⟩
        (.value start kind' name) (.value (f start) kind' name) fun _ => rfl
      cases kind with
      | mark m =>
          cases m with
          | semicolon =>
              exact value?_expr_relocate f reading fun e => by
                simp [relocate, ProgramPoint.relocate, Program.relocate, addMember,
                  MemberDecl.relocate, MemberDecl.relocateAll]
          | _ => exact hnext
      | _ => exact hnext
  | body inner outer =>
      have hnext := shift_expr_relocate f program .start ⟨kind, text, position⟩
        (.statement inner outer)
        (.statement (inner.relocate f) (outer.map (OpenBody.relocate f))) fun _ => rfl
      cases kind with
      | mark m =>
          cases m with
          | closeBrace => exact congrArg some (closeBody_relocate f program inner outer)
          | _ => exact hnext
      | keyword k =>
          cases k with
          | «local» => rfl
          | _ => exact hnext
      | _ => exact hnext
  | statement inner outer reading =>
      have hnext := shift_expr_relocate f program reading ⟨kind, text, position⟩
        (.statement inner outer)
        (.statement (inner.relocate f) (outer.map (OpenBody.relocate f))) fun _ => rfl
      cases kind with
      | mark m =>
          cases m with
          | semicolon =>
              exact value?_expr_relocate f reading fun e => by
                simp [relocate, ProgramPoint.relocate, OpenBody.relocate]
          | _ => exact hnext
      | _ => exact hnext

/-- A relocated reading of a program is complete where it was, with the relocated program. -/
theorem value?_relocate (r : ProgramReading) :
    (r.relocate f).value? = r.value?.map (Program.relocate f) := by
  obtain ⟨program, point⟩ := r
  cases point <;> rfl

/-- A row of tokens that is moved is read as it was before. -/
theorem feed_relocate [Text.CharacterNames] {r r' : ProgramReading} {ts : List Token}
    (h : feed shift r ts = .ok r') :
    feed shift (r.relocate f) (ts.map (Token.relocate f)) = .ok (r'.relocate f) := by
  induction ts generalizing r with
  | nil =>
      obtain rfl : r = r' := Except.ok.inj h
      rfl
  | cons t ts ih =>
      rw [List.map_cons, feed, shift_relocate]
      rw [feed] at h
      cases hnext : r.shift t with
      | none => simp [hnext] at h
      | some next =>
          rw [hnext] at h
          exact ih h

end ProgramReading

/-- A text whose tokens are those of a program, moved, is that program, moved. -/
theorem Program.parse_relocate [Text.CharacterNames] {source source' : List Char} {p : Program}
    (hp : Program.parse source = .ok p)
    (htokens : Tokens.ofText .program source' =
      ⟨(Tokens.ofText .program source).list.map (Token.relocate f), none⟩) :
    Program.parse source' = .ok (p.relocate f) := by
  obtain ⟨r, hfeed, hvalue⟩ := readText_eq_ok hp
  have hfaults := faultIn_eq_none_iff.mp (faultIn_of_readText hp)
  refine readText_of_feed (r := r.relocate f) (by rw [htokens]) ?_ ?_ ?_
  · rw [htokens, faultIn_eq_none_iff]
    intro t ht
    obtain ⟨u, hu, rfl⟩ := List.mem_map.mp ht
    exact hfaults u hu
  · rw [htokens]
    exact ProgramReading.feed_relocate f hfeed
  · rw [r.value?_relocate, hvalue]
    rfl

end AnonymousObjects.Syntax
