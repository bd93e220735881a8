import RelationApi.Sdl.Document
import RelationApi.Sdl.Parser.TypeSystem
import RelationApi.Sdl.Token.Lexer

/-!
# Parsing operations and fragments

The executable definitions. A selection set takes one level of the room for nesting, like a list;
where there is no room, that is the fault even if no selection set follows.
-/

namespace RelationApi.Sdl.Parser

/-- Read the name of a fragment, which is not `on`. -/
def fragmentName : Parser Name := do
  if (← current).kind.value? = some "on" then unexpected
  name

/-- Read what follows three dots; `nested` reads the selections inside. -/
def fragmentSelection (room : Nat) (nested : Parser (List Selection)) : Parser Selection := do
  expectMark .spread
  let conditional ← optKeyword "on"
  match conditional, (← current).kind with
  | false, .name _ =>
    let n ← fragmentName
    return .spread n (← directives false room)
  | _, _ =>
    let condition ← if conditional then some <$> name else pure none
    let ds ← directives false room
    return .inline condition ds (← nested)

/-- Read a selected field; `nested` reads the selections inside. -/
def fieldSelection (room : Nat) (nested : Parser (List Selection)) : Parser Selection := do
  let first ← name
  let (label, n) ←
    if ← optMark .colon then pure (some first, ← name) else pure (none, first)
  let args ← arguments false room
  let ds ← directives false room
  let inner ← if ← peekMark .braceL then some <$> nested else pure none
  return .field label n args ds inner

/-- Read a selection; `nested` reads the selections inside. -/
def selection (room : Nat) (nested : Parser (List Selection)) : Parser Selection := do
  if ← peekMark .spread then fragmentSelection room nested else fieldSelection room nested

/-- Read a selection set. -/
def selectionSet : Nat → Parser (List Selection)
  | 0 => fail .tooDeep
  | room + 1 => anyBetween .braceL (selection room (selectionSet room)) .braceR

/-- Read a variable definition. -/
def variableDef : Parser VariableDef := do
  let d ← description
  let n ← variableName
  expectMark .colon
  let t ← typeRef depthRoom
  let v ← defaultValue
  return { description := d, name := n, type := t, default := v, directives := ← constDirectives }

/-- Read an operation, after its keyword. -/
def operation (d : Option Description) (kind : OperationKind) : Parser Operation := do
  let n ← match (← current).kind with
    | .name _ => some <$> name
    | _ => pure none
  let vs ← optBetween .parenL variableDef .parenR
  let ds ← directives false depthRoom
  return { description := d, kind := kind, name := n, variableDefs := vs, directives := ds,
           selections := ← selectionSet depthRoom }

/-- Read a fragment, after its keyword. -/
def fragment (d : Option Description) : Parser Fragment := do
  let n ← fragmentName
  expectKeyword "on"
  let c ← name
  let ds ← directives false depthRoom
  return { description := d, name := n, condition := c, directives := ds,
           selections := ← selectionSet depthRoom }

/-- The parser for the definition of the given keyword, after the keyword. -/
def definitionBody? (keyword : String) : Option (Option Description → Parser Definition) :=
  match OperationKind.ofKeyword? keyword with
  | some kind => some fun d => .operation <$> operation d kind
  | none =>
    if keyword = "fragment" then some fun d => .fragment <$> fragment d
    else typeSystemBody? keyword

/-- Read a definition that starts with a keyword or a description. -/
def keywordDefinition : Parser Definition := do
  let described ← peekDescription
  let head ← if described then lookahead else pure (← current).kind
  match head with
  | .name keyword =>
    match definitionBody? keyword with
    | some body =>
      let d ← description
      advance
      body d
    | none =>
      if described then fail .describedOther
      else if keyword = "extend" then extension
      else fail (.unexpected head)
  | .mark .braceL => fail .describedSelections
  | _ => fail (.unexpected head)

/-- Read a definition. -/
def definition : Parser Definition := do
  if ← peekMark .braceL then
    return .operation { kind := .query, selections := ← selectionSet depthRoom }
  else keywordDefinition

/-- Read a document : definitions up to the end, at least one. -/
def document : Parser Document := do
  let first ← definition
  let more ← repeated (return (← current).kind ≠ .finish) definition
  return ⟨first :: more⟩

end RelationApi.Sdl.Parser

namespace RelationApi.Sdl.Document

/-- The document that the tokens spell. -/
def ofTokens (tokens : List Token) : Except SyntaxError Document :=
  (do Parser.checkHead tokens; Parser.document : Parser Document).run' ⟨0, tokens⟩

/-- The document that a text spells. -/
def parse (text : String) : Except SyntaxError Document :=
  ofTokens (Token.ofString text)

end RelationApi.Sdl.Document
