import AnonymousObjects.Syntax.Expr.Reading
import AnonymousObjects.Syntax.Program

/-!
# Reading programs

A program is read token by token like an expression. A `ProgramReading` holds the declarations
already complete and the place reached in the next one; `shift` adds a token and refuses one that no
program has at this place.
-/

namespace AnonymousObjects.Syntax

variable [Text.CharacterNames]

/-- A type declaration whose fields are being read. -/
structure OpenType where
  position : Position
  kind : TypeDeclKind
  name : String
  fields : List FieldDecl := []

/-- A function declaration whose parameters are being read. -/
structure OpenFunction where
  position : Position
  name : String
  params : List ParamDecl := []

/-- A member or local function whose body is being read. -/
structure OpenBody where
  position : Position
  kind : MemberDeclKind
  name : String
  exprs : List Expr := []
  locals : List MemberDecl := []

/-- The type with the fields read so far. -/
def OpenType.close (t : OpenType) : TypeDecl :=
  ⟨t.position, t.kind, t.name, t.fields⟩

/-- The member with the statements and local functions read so far. -/
def OpenBody.close (b : OpenBody) : MemberDecl :=
  ⟨b.position, b.kind, b.name, b.exprs, b.locals⟩

/-- What a type reference belongs to: a field, a global, a parameter or the result of a
function. -/
inductive TypeSite where
  | field (owner : OpenType) (isStatic : Bool) (name : Token)
  | global (name : Token)
  | param (function : OpenFunction) (name : Token)
  | result (function : OpenFunction)

/-- What comes next in a program. Bodies inside which a body stands are listed from the inside
out. -/
inductive ProgramPoint where
  | item
  | afterRef (start : Position)
  | typeName (start : Position) (kind : TypeDeclKind)
  | typeOpen (type : OpenType)
  | typeBody (type : OpenType)
  | fieldName (type : OpenType)
  | globalName
  | functionName
  | functionOpen (function : OpenFunction)
  | firstParam (function : OpenFunction)
  | paramName (function : OpenFunction)
  | typeColon (site : TypeSite)
  | typeRef (site : TypeSite)
  | stars (site : TypeSite) (type : TypeRef)
  | valueName (start : Position) (kind : MemberDeclKind)
  | valueEqual (start : Position) (kind : MemberDeclKind) (name : String)
  | value (start : Position) (kind : MemberDeclKind) (name : String) (reading : Reading)
  | bodyName (start : Position) (kind : MemberDeclKind) (outer : List OpenBody)
  | bodyOpen (body : OpenBody) (outer : List OpenBody)
  | body (body : OpenBody) (outer : List OpenBody)
  | statement (body : OpenBody) (outer : List OpenBody) (reading : Reading)

/-- A program of which some tokens have been read. -/
structure ProgramReading where
  program : Program
  point : ProgramPoint

namespace ProgramReading

/-- Before the first token. -/
def start : ProgramReading :=
  ⟨{}, .item⟩

/-- The program with one more type. -/
def addType (p : Program) (t : TypeDecl) : Program :=
  { p with types := p.types ++ [t] }

/-- The program with one more global. -/
def addGlobal (p : Program) (g : GlobalDecl) : Program :=
  { p with globals := p.globals ++ [g] }

/-- The program with one more function. -/
def addFunction (p : Program) (f : FunctionDecl) : Program :=
  { p with functions := p.functions ++ [f] }

/-- The program with one more member. -/
def addMember (p : Program) (m : MemberDecl) : Program :=
  { p with members := p.members ++ [m] }

/-- The place reached after a complete body: the next declaration, or what follows a local function
in the body around it. -/
def closeBody (p : Program) (body : OpenBody) : List OpenBody → ProgramReading
  | [] => ⟨addMember p body.close, .item⟩
  | outer :: rest => ⟨p, .body { outer with locals := outer.locals ++ [body.close] } rest⟩

/-- A keyword that starts a declaration. -/
def openItem (p : Program) (start : Position) : Keyword → Option ProgramReading
  | .classWord => some ⟨p, .typeName start .classType⟩
  | .struct => some ⟨p, .typeName start .structType⟩
  | .ref => some ⟨p, .afterRef start⟩
  | .let => some ⟨p, .globalName⟩
  | .fn => some ⟨p, .functionName⟩
  | .method => some ⟨p, .bodyName start .method []⟩
  | .type => some ⟨p, .bodyName start .type []⟩
  | .script => some ⟨p, .bodyOpen ⟨start, .script, "<script>", [], []⟩ []⟩
  | .field => some ⟨p, .valueName start .field⟩
  | .const => some ⟨p, .valueName start .const⟩
  | .param => some ⟨p, .valueName start .param⟩
  | _ => none

/-- A mark after a complete type reference. -/
def closeTypeRef (p : Program) (ref : TypeRef) : TypeSite → Mark → Option ProgramReading
  | .field owner isStatic name, .semicolon =>
    some ⟨p, .typeBody
      { owner with fields := owner.fields ++ [⟨name.position, name.text, ref, isStatic⟩] }⟩
  | .global name, .semicolon => some ⟨addGlobal p ⟨name.position, name.text, ref⟩, .item⟩
  | .param function name, .comma =>
    some ⟨p, .paramName { function with params := function.params ++ [⟨name.text, ref⟩] }⟩
  | .param function name, .closeParen =>
    some ⟨p, .typeColon (.result { function with params := function.params ++ [⟨name.text, ref⟩] })⟩
  | .result function, .semicolon =>
    some ⟨addFunction p ⟨function.position, function.name, function.params, ref⟩, .item⟩
  | _, _ => none

/-- The reading with one more token, unless no program has that token here. -/
def shift (r : ProgramReading) (t : Token) : Option ProgramReading :=
  match r.point, t.kind with
  | .item, .keyword k => openItem r.program t.position k
  | .afterRef start, .keyword .struct => some ⟨r.program, .typeName start .refStructType⟩
  | .typeName start kind, .name => some ⟨r.program, .typeOpen ⟨start, kind, t.text, []⟩⟩
  | .typeOpen type, .mark .openBrace => some ⟨r.program, .typeBody type⟩
  | .typeBody type, .mark .closeBrace => some ⟨addType r.program type.close, .item⟩
  | .typeBody type, .keyword .static => some ⟨r.program, .fieldName type⟩
  | .typeBody type, .name => some ⟨r.program, .typeColon (.field type false t)⟩
  | .fieldName type, .name => some ⟨r.program, .typeColon (.field type true t)⟩
  | .globalName, .name => some ⟨r.program, .typeColon (.global t)⟩
  | .functionName, .name => some ⟨r.program, .functionOpen ⟨t.position, t.text, []⟩⟩
  | .functionOpen function, .mark .openParen => some ⟨r.program, .firstParam function⟩
  | .firstParam function, .mark .closeParen => some ⟨r.program, .typeColon (.result function)⟩
  | .firstParam function, .name => some ⟨r.program, .typeColon (.param function t)⟩
  | .paramName function, .name => some ⟨r.program, .typeColon (.param function t)⟩
  | .typeColon site, .mark .colon => some ⟨r.program, .typeRef site⟩
  | .typeRef site, .name => some ⟨r.program, .stars site ⟨t.position, t.text, 0⟩⟩
  | .stars site ref, .mark .star =>
    some ⟨r.program, .stars site { ref with depth := ref.depth + 1 }⟩
  | .stars site ref, .mark m => closeTypeRef r.program ref site m
  | .valueName start kind, .name => some ⟨r.program, .valueEqual start kind t.text⟩
  | .valueEqual start kind name, .mark .equal => some ⟨r.program, .value start kind name .start⟩
  | .value start kind name reading, .mark .semicolon =>
    reading.value?.map fun e => ⟨addMember r.program ⟨start, kind, name, [e], []⟩, .item⟩
  | .value start kind name reading, _ =>
    (reading.shift t).map fun next => ⟨r.program, .value start kind name next⟩
  | .bodyName start kind outer, .name =>
    some ⟨r.program, .bodyOpen ⟨start, kind, t.text, [], []⟩ outer⟩
  | .bodyOpen body outer, .mark .openBrace => some ⟨r.program, .body body outer⟩
  | .body body outer, .mark .closeBrace => some (closeBody r.program body outer)
  | .body body outer, .keyword .local =>
    some ⟨r.program, .bodyName t.position .localFunction (body :: outer)⟩
  | .body body outer, _ =>
    (Reading.start.shift t).map fun next => ⟨r.program, .statement body outer next⟩
  | .statement body outer reading, .mark .semicolon =>
    reading.value?.map fun e => ⟨r.program, .body { body with exprs := body.exprs ++ [e] } outer⟩
  | .statement body outer reading, _ =>
    (reading.shift t).map fun next => ⟨r.program, .statement body outer next⟩
  | _, _ => none

/-- The program read, if it can end here. -/
def value? (r : ProgramReading) : Option Program :=
  match r.point with
  | .item => some r.program
  | _ => none

end ProgramReading

end AnonymousObjects.Syntax
