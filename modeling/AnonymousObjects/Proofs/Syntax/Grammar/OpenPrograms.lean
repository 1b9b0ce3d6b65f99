import AnonymousObjects.Proofs.Syntax.Grammar.OpenSums
import AnonymousObjects.Syntax.Program.Reading

/-!
# Derivations of programs read token by token

An `OpenProgram` is a derivation of a program of which some tokens have been read, with an `OpenSum`
for the expression in it that is not complete. `OpenProgram.built_shift` says that what it builds is
always the program reading of the same tokens.
-/

namespace AnonymousObjects.Syntax.Grammar

/-- A type whose fields are being read. -/
structure TypeStart where
  words : TypeWords
  name : Ident
  opening : Marked .openBrace
  fields : List Field

/-- The type with the fields read so far. -/
def TypeStart.close (type : TypeStart) (closing : Marked .closeBrace) : TypeItem :=
  ⟨type.words, type.name, type.opening, type.fields, closing⟩

/-- A function up to its parameters. -/
structure FunctionStart where
  word : Word .fn
  name : Ident
  opening : Marked .openParen

/-- What a type reference belongs to, with what has been read of it. -/
inductive Site where
  | field (type : TypeStart) (static : Option (Word .static)) (name : Ident)
  | global (word : Word .let) (name : Ident)
  | param (function : FunctionStart) (before : List (TypedName × Marked .comma)) (name : Ident)
  | result (function : FunctionStart) (params : Option Params) (closing : Marked .closeParen)

/-- What stands in front of the opening brace of a body. A local function stands in the body around
it, after the part of that body that has been read. -/
inductive BodyStart where
  | member (words : BodyWords)
  | localFunction (outer : BodyStart) (opening : Marked .openBrace) (before : Body)
      (word : Word .local) (name : Ident)

/-- What stands in front of the name of a body. -/
inductive BodyWord where
  | method (word : Word .method)
  | type (word : Word .type)
  | localFunction (outer : BodyStart) (opening : Marked .openBrace) (before : Body)
      (word : Word .local)

/-- The start of a body with its name. -/
def BodyWord.named (name : Ident) : BodyWord → BodyStart
  | .method word => .member (.method word name)
  | .type word => .member (.type word name)
  | .localFunction outer opening before word => .localFunction outer opening before word name

/-- The items of a body and of another after it. -/
def Body.append : Body → Body → Body
  | .nil, more => more
  | .statement value semicolon rest, more => .statement value semicolon (rest.append more)
  | .localFunction word name opening inner closing rest, more =>
    .localFunction word name opening inner closing (rest.append more)

/-- The place reached in a declaration, with what has been read of it. -/
inductive ItemPlace where
  | item
  | afterRef (ref : Word .ref)
  | typeName (words : TypeWords)
  | typeOpen (words : TypeWords) (name : Ident)
  | typeBody (type : TypeStart)
  | fieldName (type : TypeStart) (static : Word .static)
  | globalName (word : Word .let)
  | functionName (word : Word .fn)
  | functionOpen (word : Word .fn) (name : Ident)
  | firstParam (function : FunctionStart)
  | paramName (function : FunctionStart) (before : List (TypedName × Marked .comma))
  | typeColon (site : Site)
  | typeRef (site : Site) (colon : Marked .colon)
  | stars (site : Site) (colon : Marked .colon) (ref : TypeRef)
  | valueName (word : ValueWord)
  | valueEqual (word : ValueWord) (name : Ident)
  | value (word : ValueWord) (name : Ident) (op : Marked .equal) (init : OpenSum)
  | bodyName (word : BodyWord)
  | bodyOpen (start : BodyStart)
  | body (start : BodyStart) (opening : Marked .openBrace) (before : Body)
  | statement (start : BodyStart) (opening : Marked .openBrace) (before : Body) (expr : OpenSum)

/-- A derivation of a program of which some tokens have been read: the complete declarations, and
the place reached in the next. -/
structure OpenProgram where
  before : Program
  place : ItemPlace

namespace OpenProgram

/-- Before the first token. -/
def start : OpenProgram :=
  ⟨[], .item⟩

/-- After one more declaration. -/
def finish (q : OpenProgram) (item : Item) : OpenProgram :=
  ⟨q.before ++ [item], .item⟩

/-- In the same declaration, at another place. -/
def move (q : OpenProgram) (place : ItemPlace) : OpenProgram :=
  ⟨q.before, place⟩

/-- The first token of a declaration. -/
def openItem (t : Token) : Option ItemPlace :=
  match h : t.kind with
  | .keyword .classWord => some (.typeName (.classType ⟨t, h⟩))
  | .keyword .struct => some (.typeName (.structType ⟨t, h⟩))
  | .keyword .ref => some (.afterRef ⟨t, h⟩)
  | .keyword .let => some (.globalName ⟨t, h⟩)
  | .keyword .fn => some (.functionName ⟨t, h⟩)
  | .keyword .method => some (.bodyName (.method ⟨t, h⟩))
  | .keyword .type => some (.bodyName (.type ⟨t, h⟩))
  | .keyword .script => some (.bodyOpen (.member (.script ⟨t, h⟩)))
  | .keyword .field => some (.valueName (.field ⟨t, h⟩))
  | .keyword .const => some (.valueName (.const ⟨t, h⟩))
  | .keyword .param => some (.valueName (.param ⟨t, h⟩))
  | _ => none

/-- A mark after a complete type reference. -/
def closeTypeRef (q : OpenProgram) (site : Site) (colon : Marked .colon) (ref : TypeRef) (m : Mark)
    (t : Marked m) : Option OpenProgram :=
  match site, m, t with
  | .field type static name, .semicolon, semicolon =>
    let field : Field := ⟨static, ⟨name, colon, ref⟩, semicolon⟩
    some (q.move (.typeBody { type with fields := type.fields ++ [field] }))
  | .global word name, .semicolon, semicolon =>
    some (q.finish (.global ⟨word, ⟨name, colon, ref⟩, semicolon⟩))
  | .param function before name, .comma, comma =>
    some (q.move (.paramName function (before ++ [(⟨name, colon, ref⟩, comma)])))
  | .param function before name, .closeParen, closing =>
    some (q.move (.typeColon (.result function (some ⟨before, ⟨name, colon, ref⟩⟩) closing)))
  | .result ⟨word, name, opening⟩ params closing, .semicolon, semicolon =>
    some (q.finish (.function ⟨word, name, opening, params, closing, colon, ref, semicolon⟩))
  | _, _, _ => none

/-- After a complete body: the next declaration, or what follows a local function in the body
around it. -/
def closeBody (q : OpenProgram) (opening : Marked .openBrace) (inner : Body)
    (closing : Marked .closeBrace) : BodyStart → OpenProgram
  | .member words => q.finish (.member (.body words opening inner closing))
  | .localFunction outer outerOpening before word name =>
    q.move (.body outer outerOpening
      (before.append (.localFunction word name opening inner closing .nil)))

/-- The derivation with one more token, unless none has that token here. -/
def shift (q : OpenProgram) (t : Token) : Option OpenProgram :=
  match q.place with
  | .item => (openItem t).map q.move
  | .afterRef ref =>
    match h : t.kind with
    | .keyword .struct => some (q.move (.typeName (.refStructType ref ⟨t, h⟩)))
    | _ => none
  | .typeName words =>
    match h : t.kind with
    | .name => some (q.move (.typeOpen words ⟨t, h⟩))
    | _ => none
  | .typeOpen words name =>
    match h : t.kind with
    | .mark .openBrace => some (q.move (.typeBody ⟨words, name, ⟨t, h⟩, []⟩))
    | _ => none
  | .typeBody type =>
    match h : t.kind with
    | .mark .closeBrace => some (q.finish (.type (type.close ⟨t, h⟩)))
    | .keyword .static => some (q.move (.fieldName type ⟨t, h⟩))
    | .name => some (q.move (.typeColon (.field type none ⟨t, h⟩)))
    | _ => none
  | .fieldName type static =>
    match h : t.kind with
    | .name => some (q.move (.typeColon (.field type (some static) ⟨t, h⟩)))
    | _ => none
  | .globalName word =>
    match h : t.kind with
    | .name => some (q.move (.typeColon (.global word ⟨t, h⟩)))
    | _ => none
  | .functionName word =>
    match h : t.kind with
    | .name => some (q.move (.functionOpen word ⟨t, h⟩))
    | _ => none
  | .functionOpen word name =>
    match h : t.kind with
    | .mark .openParen => some (q.move (.firstParam ⟨word, name, ⟨t, h⟩⟩))
    | _ => none
  | .firstParam function =>
    match h : t.kind with
    | .mark .closeParen => some (q.move (.typeColon (.result function none ⟨t, h⟩)))
    | .name => some (q.move (.typeColon (.param function [] ⟨t, h⟩)))
    | _ => none
  | .paramName function before =>
    match h : t.kind with
    | .name => some (q.move (.typeColon (.param function before ⟨t, h⟩)))
    | _ => none
  | .typeColon site =>
    match h : t.kind with
    | .mark .colon => some (q.move (.typeRef site ⟨t, h⟩))
    | _ => none
  | .typeRef site colon =>
    match h : t.kind with
    | .name => some (q.move (.stars site colon ⟨⟨t, h⟩, []⟩))
    | _ => none
  | .stars site colon ref =>
    match h : t.kind with
    | .mark .star => some (q.move (.stars site colon ⟨ref.name, ref.stars ++ [⟨t, h⟩]⟩))
    | .mark m => q.closeTypeRef site colon ref m ⟨t, h⟩
    | _ => none
  | .valueName word =>
    match h : t.kind with
    | .name => some (q.move (.valueEqual word ⟨t, h⟩))
    | _ => none
  | .valueEqual word name =>
    match h : t.kind with
    | .mark .equal => some (q.move (.value word name ⟨t, h⟩ .start))
    | _ => none
  | .value word name op init =>
    match h : t.kind with
    | .mark .semicolon =>
      init.value?.map fun value => q.finish (.member (.value word name op value ⟨t, h⟩))
    | _ => (init.shift t).map fun next => q.move (.value word name op next)
  | .bodyName word =>
    match h : t.kind with
    | .name => some (q.move (.bodyOpen (word.named ⟨t, h⟩)))
    | _ => none
  | .bodyOpen start =>
    match h : t.kind with
    | .mark .openBrace => some (q.move (.body start ⟨t, h⟩ .nil))
    | _ => none
  | .body start opening before =>
    match h : t.kind with
    | .mark .closeBrace => some (q.closeBody opening before ⟨t, h⟩ start)
    | .keyword .local => some (q.move (.bodyName (.localFunction start opening before ⟨t, h⟩)))
    | _ => (OpenSum.start.shift t).map fun next => q.move (.statement start opening before next)
  | .statement start opening before expr =>
    match h : t.kind with
    | .mark .semicolon =>
      expr.value?.map fun value =>
        q.move (.body start opening (before.append (.statement value ⟨t, h⟩ .nil)))
    | _ => (expr.shift t).map fun next => q.move (.statement start opening before next)

/-- The derivation read, if it can end here. -/
def value? (q : OpenProgram) : Option Program :=
  match q.place with
  | .item => some q.before
  | _ => none

end OpenProgram

/-! ## What a derivation builds -/

/-- What a type builds whose fields are being read. -/
def TypeStart.build (type : TypeStart) : OpenType :=
  ⟨type.words.start, type.words.kind, type.name.val.text, type.fields.map Field.build⟩

/-- What a function builds whose parameters are being read. -/
def FunctionStart.build (function : FunctionStart) (params : List ParamDecl) : OpenFunction :=
  ⟨function.name.val.position, function.name.val.text, params⟩

/-- What the owner of a type reference builds. -/
def Site.build : Site → TypeSite
  | .field type static name => .field type.build static.isSome name.val
  | .global _ name => .global name.val
  | .param function before name =>
    .param (function.build (before.map (·.1.param))) name.val
  | .result function params _ => .result (function.build (params.toList.flatMap Params.build))

variable [Text.CharacterNames]

namespace BodyStart

/-- The kind of member that a body belongs to. -/
def kind : BodyStart → MemberDeclKind
  | .member words => words.kind
  | .localFunction _ _ _ _ _ => .localFunction

/-- The name of the member. -/
def name : BodyStart → String
  | .member words => words.name
  | .localFunction _ _ _ _ name => name.val.text

/-- Where the member starts. -/
def start : BodyStart → Position
  | .member words => words.start
  | .localFunction _ _ _ word _ => word.val.position

/-- What a part of the body builds. -/
def inner (b : BodyStart) (before : Body) : OpenBody :=
  ⟨b.start, b.kind, b.name, before.exprs, before.locals⟩

/-- What the bodies around it build, from the inside out. -/
def outer : BodyStart → List OpenBody
  | .member _ => []
  | .localFunction around _ before _ _ => around.inner before :: around.outer

end BodyStart

namespace BodyWord

/-- The kind of member that a word announces. -/
def kind : BodyWord → MemberDeclKind
  | .method _ => .method
  | .type _ => .type
  | .localFunction _ _ _ _ => .localFunction

/-- Where the member starts. -/
def start : BodyWord → Position
  | .method word => word.val.position
  | .type word => word.val.position
  | .localFunction _ _ _ word => word.val.position

/-- What the bodies around it build. -/
def outer : BodyWord → List OpenBody
  | .method _ | .type _ => []
  | .localFunction around _ before _ => around.inner before :: around.outer

end BodyWord

/-- The point that a place builds. -/
def ItemPlace.build : ItemPlace → ProgramPoint
  | .item => .item
  | .afterRef ref => .afterRef ref.val.position
  | .typeName words => .typeName words.start words.kind
  | .typeOpen words name => .typeOpen ⟨words.start, words.kind, name.val.text, []⟩
  | .typeBody type => .typeBody type.build
  | .fieldName type _ => .fieldName type.build
  | .globalName _ => .globalName
  | .functionName _ => .functionName
  | .functionOpen _ name => .functionOpen ⟨name.val.position, name.val.text, []⟩
  | .firstParam function => .firstParam (function.build [])
  | .paramName function before => .paramName (function.build (before.map (·.1.param)))
  | .typeColon site => .typeColon site.build
  | .typeRef site _ => .typeRef site.build
  | .stars site _ ref => .stars site.build ref.build
  | .valueName word => .valueName word.token.position word.kind
  | .valueEqual word name => .valueEqual word.token.position word.kind name.val.text
  | .value word name _ init =>
    .value word.token.position word.kind name.val.text init.built
  | .bodyName word => .bodyName word.start word.kind word.outer
  | .bodyOpen start => .bodyOpen (start.inner .nil) start.outer
  | .body start _ before => .body (start.inner before) start.outer
  | .statement start _ before expr => .statement (start.inner before) start.outer expr.built

/-- The program reading that a derivation builds. -/
def OpenProgram.built (q : OpenProgram) : ProgramReading :=
  ⟨q.before.build, q.place.build⟩

/-- The expressions of two bodies are those of the one and then those of the other. -/
@[simp] theorem Body.exprs_append (before more : Body) :
    (before.append more).exprs = before.exprs ++ more.exprs := by
  induction before with
  | nil => rfl
  | statement value semicolon rest ih => simp [append, exprs, ih]
  | localFunction word name opening inner closing rest _ ih => simp [append, exprs, ih]

/-- The local functions of two bodies are those of the one and then those of the other. -/
@[simp] theorem Body.locals_append (before more : Body) :
    (before.append more).locals = before.locals ++ more.locals := by
  induction before with
  | nil => rfl
  | statement value semicolon rest ih => simp [append, locals, ih]
  | localFunction word name opening inner closing rest _ ih => simp [append, locals, ih]

namespace OpenProgram

variable {q : OpenProgram} {t : Token}

/-- A declaration is added to those of its sort. -/
theorem built_finish (q : OpenProgram) (item : Item) :
    (q.finish item).built =
      ⟨match item with
        | .type item => ProgramReading.addType q.before.build item.build
        | .global item => ProgramReading.addGlobal q.before.build item.build
        | .function item => ProgramReading.addFunction q.before.build item.build
        | .member item => ProgramReading.addMember q.before.build item.build, .item⟩ := by
  cases item <;>
    simp [finish, built, ItemPlace.build, Program.build, ProgramReading.addType,
      ProgramReading.addGlobal, ProgramReading.addFunction, ProgramReading.addMember, Item.type?,
      Item.global?, Item.function?, Item.member?]

/-- Closing a body builds what reading its closing brace makes. -/
theorem built_closeBody (q : OpenProgram) (opening : Marked .openBrace) (inner : Body)
    (closing : Marked .closeBrace) (start : BodyStart) :
    (q.closeBody opening inner closing start).built =
      ProgramReading.closeBody q.before.build (start.inner inner) start.outer := by
  cases start with
  | member words => exact built_finish q _
  | localFunction outer outerOpening before word name =>
      simp [closeBody, move, built, ItemPlace.build, ProgramReading.closeBody, BodyStart.outer,
        BodyStart.inner, BodyStart.start, BodyStart.kind, BodyStart.name, OpenBody.close,
        Body.exprs, Body.locals]

/-- A mark after a type closes its place as it does in reading. -/
theorem built_closeTypeRef (q : OpenProgram) (site : Site) (colon : Marked .colon) (ref : TypeRef)
    (m : Mark) (t : Marked m) :
    ProgramReading.closeTypeRef q.before.build ref.build site.build m =
      (q.closeTypeRef site colon ref m t).map built := by
  cases site with
  | field type static name =>
      cases m with
      | semicolon =>
          simp [ProgramReading.closeTypeRef, closeTypeRef, Site.build, move, built, ItemPlace.build,
            TypeStart.build, Field.build]
      | _ => rfl
  | global word name =>
      cases m with
      | semicolon =>
          simp [ProgramReading.closeTypeRef, closeTypeRef, Site.build, built_finish,
            GlobalItem.build]
      | _ => rfl
  | param function before name =>
      cases m with
      | comma | closeParen =>
          simp [ProgramReading.closeTypeRef, closeTypeRef, Site.build, move, built, ItemPlace.build,
            FunctionStart.build, Params.build, TypedName.param]
      | _ => rfl
  | result function params closing =>
      cases m with
      | semicolon =>
          simp [ProgramReading.closeTypeRef, closeTypeRef, Site.build, built_finish,
            FunctionStart.build, FunctionItem.build]
      | _ => rfl

/-- A token of an expression in a declaration. -/
theorem shift_expr (q : OpenProgram) (expr : OpenSum) (t : Token) (place : OpenSum → ItemPlace)
    (point : Reading → ProgramPoint) (h : ∀ next, (place next).build = point next.built) :
    (expr.built.shift t).map (fun next => ⟨q.before.build, point next⟩) =
      ((expr.shift t).map fun next => q.move (place next)).map built := by
  rw [expr.built_shift]
  cases expr.shift t <;> simp [move, built, h]

/-- The end of an expression in a declaration. -/
theorem value?_expr (expr : OpenSum) {f : Expr → ProgramReading} {g : Sum → OpenProgram}
    (h : ∀ value, (g value).built = f value.build) :
    expr.built.value?.map f = (expr.value?.map g).map built := by
  rw [expr.built_value?]
  cases expr.value? <;> simp [h]

/-- What a derivation builds shifts as the derivation does. -/
theorem built_shift (q : OpenProgram) (t : Token) : q.built.shift t = (q.shift t).map built := by
  obtain ⟨before, place⟩ := q
  obtain ⟨kind, text, position⟩ := t
  cases place with
  | item =>
      cases kind with
      | keyword k => cases k <;> rfl
      | _ => rfl
  | afterRef =>
      cases kind with
      | keyword k => cases k <;> rfl
      | _ => rfl
  | typeBody type =>
      cases kind with
      | keyword k => cases k <;> rfl
      | mark m =>
          cases m with
          | closeBrace =>
              exact congrArg some
                (built_finish ⟨before, .typeBody type⟩ (.type (type.close _))).symm
          | _ => rfl
      | _ => rfl
  -- Places that wait for a name, then places that wait for a mark.
  | typeName | fieldName | globalName | functionName | paramName | typeRef | valueName =>
      cases kind <;> rfl
  | bodyName word => cases word <;> cases kind <;> rfl
  | typeOpen | functionOpen | firstParam | typeColon | valueEqual | bodyOpen =>
      cases kind with
      | mark m => cases m <;> rfl
      | _ => rfl
  | stars site colon ref =>
      cases kind with
      | mark m =>
          cases m with
          | star => simp [built, ItemPlace.build, ProgramReading.shift, shift, move, TypeRef.build]
          | _ => exact built_closeTypeRef _ site colon ref _ _
      | _ => rfl
  | value word name op init =>
      -- Every token but the closing semicolon goes on with the expression.
      have hnext := shift_expr ⟨before, .item⟩ init ⟨kind, text, position⟩
        (ItemPlace.value word name op) _ fun _ => rfl
      cases kind with
      | mark m =>
          cases m with
          | semicolon => exact value?_expr init fun value =>
              built_finish ⟨before, .item⟩ (.member (.value word name op value _))
          | _ => exact hnext
      | _ => exact hnext
  | body start opening inner =>
      have hnext := shift_expr ⟨before, .item⟩ .start ⟨kind, text, position⟩
        (ItemPlace.statement start opening inner) _ fun _ => rfl
      cases kind with
      | mark m =>
          cases m with
          | closeBrace => exact congrArg some (built_closeBody _ opening inner _ start).symm
          | _ => exact hnext
      | keyword k =>
          cases k with
          | «local» => rfl
          | _ => exact hnext
      | _ => exact hnext
  | statement start opening inner expr =>
      have hnext := shift_expr ⟨before, .item⟩ expr ⟨kind, text, position⟩
        (ItemPlace.statement start opening inner) _ fun _ => rfl
      cases kind with
      | mark m =>
          cases m with
          | semicolon =>
              refine value?_expr expr fun value => ?_
              simp [move, built, ItemPlace.build, BodyStart.inner, Body.exprs, Body.locals]
          | _ => exact hnext
      | _ => exact hnext

/-- What a derivation builds has the value that the derivation builds. -/
theorem built_value? (q : OpenProgram) : q.built.value? = q.value?.map Program.build := by
  obtain ⟨before, place⟩ := q
  cases place <;> rfl

end OpenProgram

end AnonymousObjects.Syntax.Grammar
