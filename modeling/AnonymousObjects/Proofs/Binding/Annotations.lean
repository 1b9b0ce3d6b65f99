import AnonymousObjects.Proofs.Binding.Repetition

/-!
# Binding without annotations

`unannotated` forgets the nullability of the fields of creations, and nothing else. What binding
does when nullable references are neither on nor off is what it does otherwise, with the
nullability forgotten (`Binds.unannotated`): no rule asks a node for it, and interning drops it with
the rest of a field that is no part of the key.
-/

namespace AnonymousObjects

open Syntax (Expr Initializer Literal Name)

/-! ## Forgetting annotations -/

/-- A field of unknown nullability. -/
def AnonymousField.unannotated (f : AnonymousField) : AnonymousField :=
  { f with nullability := .unknown }

namespace BoundExpr

mutual

/-- A tree in which every field has unknown nullability. -/
def unannotated : BoundExpr → BoundExpr
  | literal source type value => literal source type value
  | global source name type => global source name type
  | staticField source field => staticField source field
  | instanceField source receiver field => instanceField source (unannotated receiver) field
  | conditionalReceiver source type => conditionalReceiver source type
  | conditionalAccess source receiver access type =>
    conditionalAccess source (unannotated receiver) (unannotated access) type
  | methodGroup source function => methodGroup source function
  | call source function arguments => call source function (unannotatedAll arguments)
  | binary source op left right type => binary source op (unannotated left) (unannotated right) type
  | bad source parts => bad source (unannotatedAll parts)
  | creation source new type fields arguments declarations faulty =>
    creation source new type (fields.map (·.unannotated)) (unannotatedAll arguments) declarations
      faulty

/-- Trees in which every field has unknown nullability. -/
def unannotatedAll : List BoundExpr → List BoundExpr
  | [] => []
  | b :: bs => unannotated b :: unannotatedAll bs

end

/-- Annotations are forgotten in each node of a list on its own. -/
theorem unannotatedAll_eq_map (bs : List BoundExpr) : unannotatedAll bs = bs.map unannotated := by
  induction bs with
  | nil => rfl
  | cons b bs ih => simp [unannotatedAll, ih]

/-- A node without annotations has the same type. -/
@[simp] theorem type?_unannotated (b : BoundExpr) : b.unannotated.type? = b.type? := by
  cases b <;> rfl

/-- A node without annotations is shown the same. -/
@[simp] theorem display_unannotated (b : BoundExpr) : b.unannotated.display = b.display := by
  cases b <;> rfl

/-- Only the node of a function stands for one. -/
theorem unannotated_eq_methodGroup {b : BoundExpr} {source : Expr} {f : FunctionSymbol} :
    b.unannotated = .methodGroup source f ↔ b = .methodGroup source f := by
  cases b <;> simp [unannotated]

/-- Literals have no annotations. -/
theorem unannotated_eq_literal {b : BoundExpr} {source : Expr} {type : Option TypeId}
    {l : Literal} : b.unannotated = .literal source type l ↔ b = .literal source type l := by
  cases b <;> simp [unannotated]

mutual

/-- Forgetting annotations forgets no mistakes. -/
@[simp] theorem hasAnyErrors_unannotated (b : BoundExpr) :
    b.unannotated.hasAnyErrors = b.hasAnyErrors := by
  cases b with
  | literal | global | staticField | conditionalReceiver | methodGroup | bad => rfl
  | instanceField source receiver field =>
      simpa only [unannotated, hasAnyErrors] using hasAnyErrors_unannotated receiver
  | conditionalAccess source receiver access type =>
      simp only [unannotated, hasAnyErrors, hasAnyErrors_unannotated receiver,
        hasAnyErrors_unannotated access]
  | call source f arguments =>
      simpa only [unannotated, hasAnyErrors] using anyHasErrors_unannotated arguments
  | binary source op left right type =>
      simp only [unannotated, hasAnyErrors, hasAnyErrors_unannotated left,
        hasAnyErrors_unannotated right]
  | creation source new type fields arguments declarations faulty =>
      simp only [unannotated, hasAnyErrors, anyHasErrors_unannotated arguments]

/-- Forgetting annotations forgets no mistakes in lists of nodes. -/
@[simp] theorem anyHasErrors_unannotated (bs : List BoundExpr) :
    anyHasErrors (unannotatedAll bs) = anyHasErrors bs := by
  cases bs with
  | nil => rfl
  | cons b bs =>
      simp only [unannotatedAll, anyHasErrors, hasAnyErrors_unannotated b,
        anyHasErrors_unannotated bs]

end

end BoundExpr

/-- A field of unknown nullability whose value has no annotations. -/
def ResolvedField.unannotated (f : ResolvedField) : ResolvedField :=
  { f with field := f.field.unannotated, value := f.value.unannotated }

/-- Whether nullable references are on or off is left open. -/
def Context.unannotated (ctx : Context) : Context :=
  { ctx with nullable := none }

/-! ## Interning -/

/-- Annotations are no part of a key. -/
theorem AnonymousKey.ofFields_unannotated (fields : List AnonymousField) :
    ofFields (fields.map (·.unannotated)) = ofFields fields := by
  simp [ofFields, AnonymousField.unannotated, Function.comp_def]

/-- Fields get the type that they get without annotations. -/
theorem Store.intern_unannotated (s : Store) (fields : List AnonymousField) (span : Span) :
    s.intern (fields.map (·.unannotated)) span = s.intern fields span := by
  simp only [intern, AnonymousKey.ofFields_unannotated]

/-! ## Rules -/

variable {ctx : Context} {t : TypeTable} {s s' : Store} {b : BoundExpr} {ds : List Diagnostic}

/-- A node without annotations is described the same. -/
theorem Describes.unannotated {text : Text} (h : Describes t b text) :
    Describes t b.unannotated text := by
  cases h with
  | typed id d hid hd => exact .typed id d (b.type?_unannotated.trans hid) hd
  | untyped hnone =>
      have hrule : Describes t b.unannotated _ := .untyped (b.type?_unannotated.trans hnone)
      rwa [b.display_unannotated] at hrule

/-- A name is bound the same without annotations. -/
theorem NameRule.unannotated {name : Name} (h : NameRule ctx t name b ds) :
    NameRule ctx.unannotated t name b.unannotated ds := by
  cases h with
  | global g hglobal => exact .global g hglobal
  | function f hglobal hfunction => exact .function f hglobal hfunction
  | typeName id hglobal hfunction hid => exact .typeName id hglobal hfunction hid
  | undefined hglobal hfunction hnone => exact .undefined hglobal hfunction hnone

/-- A static field is bound the same without annotations. -/
theorem StaticFieldRule.unannotated {source : Expr} {owner : TypeId} {name : Name}
    (h : StaticFieldRule ctx t source owner name b ds) :
    StaticFieldRule ctx.unannotated t source owner name b.unannotated ds := by
  cases h with
  | found field hfield => exact .found field hfield
  | missing d hnone hd => exact .missing d hnone hd

/-- An instance field is bound the same without annotations. -/
theorem InstanceFieldRule.unannotated {source : Expr} {receiver : BoundExpr} {name : Name}
    (h : InstanceFieldRule ctx t source receiver name b ds) :
    InstanceFieldRule ctx.unannotated t source receiver.unannotated name b.unannotated ds := by
  have herrors := receiver.hasAnyErrors_unannotated
  have htype := receiver.type?_unannotated
  cases h with
  | faulty hfaulty => exact .faulty (herrors.trans hfaulty)
  | found id field hclean hid hfield =>
      exact .found id field (herrors.trans hclean) (htype.trans hid) hfield
  | missing shown hclean hnone hshown =>
      exact .missing shown (herrors.trans hclean) (by rw [htype, hnone]) hshown.unannotated

/-- A path is rejected the same without annotations. -/
theorem PathRule.unannotated {left : Expr} (h : PathRule ctx left b ds) :
    PathRule ctx.unannotated left b.unannotated ds := by
  cases h with
  | faulty hfaulty => exact .faulty (b.hasAnyErrors_unannotated.trans hfaulty)
  | unknown hclean => exact .unknown (b.hasAnyErrors_unannotated.trans hclean)

/-- Member bindings refer to the same type without annotations. -/
theorem ReceiverRule.unannotated {type : Option TypeId} (h : ReceiverRule t b type) :
    ReceiverRule t b.unannotated type := by
  have htype := b.type?_unannotated
  cases h with
  | untyped hnone => exact .untyped (htype.trans hnone)
  | nullable id inner name hid hd => exact .nullable id inner name (htype.trans hid) hd
  | reference id d hid hd hreference => exact .reference id d (htype.trans hid) hd hreference
  | other id d hid hd hother => exact .other id d (htype.trans hid) hd hother

/-- A call is bound the same without annotations. -/
theorem CallRule.unannotated {source callee : Expr} {target : BoundExpr}
    {arguments : List BoundExpr} (h : CallRule ctx source callee target arguments b ds) :
    CallRule ctx.unannotated source callee target.unannotated (BoundExpr.unannotatedAll arguments)
      b.unannotated ds := by
  have hlength : (BoundExpr.unannotatedAll arguments).length = arguments.length := by
    rw [BoundExpr.unannotatedAll_eq_map, List.length_map]
  have herrors := target.hasAnyErrors_unannotated
  cases h with
  | faulty hfaulty => exact .faulty (herrors.trans hfaulty)
  | call name f htarget harity =>
      exact .call name f (BoundExpr.unannotated_eq_methodGroup.mpr htarget)
        (hlength.trans harity)
  | arity name f htarget harity =>
      have hrule : CallRule ctx.unannotated source callee target.unannotated
          (BoundExpr.unannotatedAll arguments) _ _ :=
        .arity name f (BoundExpr.unannotated_eq_methodGroup.mpr htarget) (by rwa [hlength])
      rwa [hlength] at hrule
  | notInvocable hclean hother =>
      exact .notInvocable (herrors.trans hclean) fun name f hgroup =>
        hother name f (BoundExpr.unannotated_eq_methodGroup.mp hgroup)

/-- A literal is bound the same without annotations. -/
theorem LiteralRule.unannotated {source : Expr} {l : Literal} (h : LiteralRule s source l b s') :
    LiteralRule s source l b.unannotated s' := by
  cases h with
  | typed k hk => exact .typed k hk
  | untyped hk => exact .untyped hk

/-- The same nodes can be parts of strings without annotations. -/
theorem JoinRule.unannotated {joins : Bool} (h : JoinRule t b joins) :
    JoinRule t b.unannotated joins := by
  have htype := b.type?_unannotated
  cases h with
  | literal source type l hb hnone =>
      exact .literal source type l (BoundExpr.unannotated_eq_literal.mpr hb) hnone
  | untyped hnone hother =>
      exact .untyped (htype.trans hnone) fun source type l hliteral =>
        hother source type l (BoundExpr.unannotated_eq_literal.mp hliteral)
  | typed id d hid hd => exact .typed id d (htype.trans hid) hd

/-- A sum has the same type without annotations. -/
theorem SumRule.unannotated {int string : TypeId} {left right : BoundExpr} {type : Option TypeId}
    (h : SumRule t int string left right type) :
    SumRule t int string left.unannotated right.unannotated type := by
  cases h with
  | int hleft hright => exact .int (by simpa using hleft) (by simpa using hright)
  | joined hint hstring hleft hright =>
      exact .joined (by simpa using hint) (by simpa using hstring) hleft.unannotated
        hright.unannotated
  | leftApart hint hstring hleft =>
      exact .leftApart (by simpa using hint) (by simpa using hstring) hleft.unannotated
  | rightApart hint hstring hleft hright =>
      exact .rightApart (by simpa using hint) (by simpa using hstring) hleft.unannotated
        hright.unannotated
  | other hint hstring => exact .other (by simpa using hint) (by simpa using hstring)

/-- A binary expression is bound the same without annotations. -/
theorem BinaryRule.unannotated {source : Expr} {op : String} {left right : BoundExpr}
    (h : BinaryRule ctx source op s left right b s' ds) :
    BinaryRule ctx.unannotated source op s left.unannotated right.unannotated b.unannotated s' ds
    := by
  have hleft' := left.hasAnyErrors_unannotated
  have hright' := right.hasAnyErrors_unannotated
  cases h with
  | faulty hfaulty => exact .faulty (by rw [hleft', hright', hfaulty])
  | sum id hleft hright hsum =>
      exact .sum id (hleft'.trans hleft) (hright'.trans hright) hsum.unannotated
  | mistake shown shown' hleft hright hsum hshown hshown' =>
      exact .mistake shown shown' (hleft'.trans hleft) (hright'.trans hright) hsum.unannotated
        hshown.unannotated hshown'.unannotated

/-- A field has the same type without annotations. -/
theorem FieldTypeRule.unannotated {span : Span} {id : TypeId} {faulty : Bool}
    (h : FieldTypeRule s b span id faulty s' ds) :
    FieldTypeRule s b.unannotated span id faulty s' ds := by
  have herrors := b.hasAnyErrors_unannotated
  have htype := b.type?_unannotated
  cases h with
  | faulty id hfaulty hid => exact .faulty id (herrors.trans hfaulty) (htype.trans hid)
  | faultyUntyped hfaulty hnone =>
      exact .faultyUntyped (herrors.trans hfaulty) (htype.trans hnone)
  | untyped hclean hnone =>
      have hrule : FieldTypeRule s b.unannotated span _ _ _ _ :=
        .untyped (herrors.trans hclean) (htype.trans hnone)
      rwa [b.display_unannotated] at hrule
  | void id d hclean hid hd hvoid =>
      exact .void id d (herrors.trans hclean) (htype.trans hid) hd hvoid
  | denied id d hclean hid hd hvoid hdenied =>
      exact .denied id d (herrors.trans hclean) (htype.trans hid) hd hvoid hdenied
  | usable id d hclean hid hd hvoid husable =>
      exact .usable id d (herrors.trans hclean) (htype.trans hid) hd hvoid husable

/-- A field keeps the same name without annotations. -/
theorem FieldNameRule.unannotated {used : List String} {init : Initializer Expr}
    {name : Option Name} {kept : Option String} (h : FieldNameRule ctx used init name kept ds) :
    FieldNameRule ctx.unannotated used init name kept ds := by
  cases h with
  | malformed hname => exact .malformed hname
  | repeated n hname hused => exact .repeated n hname hused
  | kept n hname hfresh => exact .kept n hname hfresh

/-- A field is made with its annotation as it is made without. -/
theorem FieldRule.unannotated {index : Nat} {used : List String} {init : Initializer Expr}
    {field : ResolvedField} (h : FieldRule ctx index used init s b field s' ds) :
    FieldRule ctx.unannotated index used init s b.unannotated field.unannotated s' ds := by
  cases h with
  | field kept nameReports type badType _ typeReports nullability hname htype hnullability =>
      exact .field kept nameReports type badType s' typeReports .unknown hname.unannotated
        htype.unannotated rfl

/-- The node of a creation is made the same without annotations. -/
theorem creationNode_unannotated (source : Expr) (new : Option Position)
    (resolved : List ResolvedField) (type : AnonymousType) :
    creationNode ctx.unannotated source new (resolved.map (·.unannotated)) type =
      (creationNode ctx source new resolved type).unannotated := by
  simp only [creationNode, BoundExpr.unannotated, BoundExpr.unannotatedAll_eq_map, List.map_map,
    List.filterMap_map, List.any_map]
  rfl

/-! ## Expressions -/

mutual

/-- Binding does without annotations what it does with them. -/
theorem Binds.unannotated {r : Option Receiver} {e : Expr} {s s' : Store} {b : BoundExpr}
    {ds : List Diagnostic} (h : Binds ctx r e s b s' ds) :
    Binds ctx.unannotated r e s b.unannotated s' ds := by
  match h with
  | .name _ name _ _ _ hrule => exact .name r name s _ ds hrule.unannotated
  | .staticAccess _ p target name _ owner _ _ howner hrule =>
      exact .staticAccess r p target name s owner _ ds howner hrule.unannotated
  | .instanceAccess _ p target name _ value _ ds _ ds' howner hvalue hrule =>
      exact .instanceAccess r p target name s _ s' ds _ ds' howner hvalue.unannotated
        hrule.unannotated
  | .staticPath _ p left right _ owner _ _ howner hrule =>
      exact .staticPath r p left right s owner _ ds howner hrule.unannotated
  | .unknownOwner _ p name right _ howner => exact .unknownOwner r p name right s howner
  | .longPath _ p left right _ inner _ ds ds' howner hname hinner hrule =>
      exact .longPath r p left right s _ s' ds ds' howner hname hinner.unannotated hrule.unannotated
  | .faultyTarget _ p target access _ bound _ _ hbound hfaulty =>
      exact .faultyTarget r p target access s _ s' ds hbound.unannotated
        (bound.hasAnyErrors_unannotated.trans hfaulty)
  | .badReceiver _ p target access _ bound _ ds shown hbound hclean hreceiver hshown =>
      exact .badReceiver r p target access s _ s' ds shown hbound.unannotated
        (bound.hasAnyErrors_unannotated.trans hclean) hreceiver.unannotated hshown.unannotated
  | .conditionalAccess _ p target access _ bound s₁ ds type accessed s₂ ds' lifted _ hbound hclean
      hreceiver haccess hlift =>
      rw [← accessed.type?_unannotated] at hlift
      exact .conditionalAccess r p target access s _ s₁ ds type _ s₂ ds' lifted s'
        hbound.unannotated (bound.hasAnyErrors_unannotated.trans hclean) hreceiver.unannotated
        haccess.unannotated hlift
  | .memberBinding receiver p name _ _ _ hrule =>
      exact .memberBinding receiver p name s _ ds hrule.unannotated
  | .invocation _ p callee arguments _ target s₁ ds bound _ ds' _ ds'' htarget hbound hrule =>
      exact .invocation r p callee arguments s _ s₁ ds _ s' ds' _ ds'' htarget.unannotated
        hbound.unannotated hrule.unannotated
  | .literal _ p l _ _ _ hrule => exact .literal r p l s _ s' hrule.unannotated
  | .binary _ p op left right _ boundLeft s₁ ds boundRight s₂ ds' _ _ ds'' hleft hright hrule =>
      exact .binary r p op left right s _ s₁ ds _ s₂ ds' _ s' ds'' hleft.unannotated
        hright.unannotated hrule.unannotated
  | .parenthesized _ p inner _ _ _ _ hinner =>
      exact .parenthesized r p inner s _ s' ds hinner.unannotated
  | .creation _ p new initializers _ resolved s₁ ds type _ hresolved hintern =>
      -- The key is made of names and types, so the registry is asked for the same type.
      have hkey : (resolved.map (·.unannotated)).map (·.field) =
          (resolved.map (·.field)).map (·.unannotated) := by
        simp only [List.map_map]
        rfl
      have hintern' : s₁.intern ((resolved.map (·.unannotated)).map (·.field))
          (ctx.unannotated.span new) = .ok (type, s') := by
        rw [hkey, Store.intern_unannotated]
        exact hintern
      rw [← creationNode_unannotated]
      exact .creation r p new initializers s _ s₁ ds type s' hresolved.unannotated hintern'
  | .error _ p text _ => exact .error r p text s

/-- Several expressions are bound the same without annotations. -/
theorem BindsAll.unannotated {r : Option Receiver} {es : List Expr} {s s' : Store}
    {bs : List BoundExpr} {ds : List Diagnostic} (h : BindsAll ctx r es s bs s' ds) :
    BindsAll ctx.unannotated r es s (BoundExpr.unannotatedAll bs) s' ds := by
  match h with
  | .nil _ _ => exact .nil r s
  | .cons _ e es _ b s₁ ds bs _ ds' hb hbs =>
      exact .cons r e es s _ s₁ ds _ s' ds' hb.unannotated hbs.unannotated

/-- The fields of a creation are bound the same without annotations. -/
theorem BindsFields.unannotated {r : Option Receiver} {index : Nat} {used : List String}
    {inits : List (Initializer Expr)} {s s' : Store} {fields : List ResolvedField}
    {ds : List Diagnostic} (h : BindsFields ctx r index used inits s fields s' ds) :
    BindsFields ctx.unannotated r index used inits s (fields.map (·.unannotated)) s' ds := by
  match h with
  | .nil _ _ _ _ => exact .nil r index used s
  | .cons _ _ _ init rest _ value s₁ ds field s₂ ds' others _ ds'' hvalue hfield hothers =>
      exact .cons r index used init rest s _ s₁ ds _ s₂ ds' _ s' ds'' hvalue.unannotated
        hfield.unannotated hothers.unannotated

end

end AnonymousObjects
