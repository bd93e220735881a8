import RelationApi.Sdl.Parser.Basic

/-!
# Parsing values, types and directives

Each opening of a list or an object takes one level of the `room` that is left for nesting; there is
an error where none is left. A constant value holds no variables.
-/

namespace RelationApi.Sdl.Parser

/-- The value that a name stands for. -/
def namedValue (s : String) (span : Option Span) : Value :=
  if s = "true" then .boolean true span
  else if s = "false" then .boolean false span
  else if s = "null" then .null span
  else .enum (.text s) span

/-- Read a variable. -/
def variableName : Parser Name := do
  expectMark .dollar
  name

/-- Refuse the variable at the head. -/
def refuseVariable {α : Type} : Parser α := do
  expectMark .dollar
  match (← current).kind with
  | .name s => fail (.variableInConstant s)
  | _ => fail (.unexpected (.mark .dollar))

/-- Read a value that holds no other. -/
def atom (const : Bool) : Parser Value := do
  let t ← current
  match t.kind with
  | .int s =>
    advance
    return .int s (some t.span)
  | .float s =>
    advance
    return .float s (some t.span)
  | .string s =>
    advance
    return .string (.text s) false (some t.span)
  | .block s =>
    advance
    return .string (.text s) true (some t.span)
  | .name s =>
    advance
    return namedValue s (some t.span)
  | .mark .dollar => if const then refuseVariable else return .variable (← variableName)
  | _ => unexpected

/-- Read an object field; `nested` reads its value. -/
def objectField (nested : Parser Value) : Parser (Name × Value) := do
  let n ← name
  expectMark .colon
  return (n, ← nested)

/-- Read a value; `nested` reads the values inside, where there is room for them. -/
def valueWith (const : Bool) (nested : Option (Parser Value)) : Parser Value := do
  let t ← current
  match t.kind, nested with
  | .mark .bracketL, some nested =>
    let items ← anyBetween .bracketL nested .bracketR
    return .list items (← spanFrom t.span.start)
  | .mark .braceL, some nested =>
    let fields ← anyBetween .braceL (objectField nested) .braceR
    return .object fields (← spanFrom t.span.start)
  | .mark .bracketL, none | .mark .braceL, none => fail .tooDeep
  | _, _ => atom const

/-- Read a value. -/
def value (const : Bool) : Nat → Parser Value
  | 0 => valueWith const none
  | room + 1 => valueWith const (some (value const room))

/-- Read an argument. -/
def argument (const : Bool) (room : Nat) : Parser Argument := do
  let n ← name
  expectMark .colon
  return { name := n, value := ← value const room }

/-- Read arguments in parentheses, if there are any. -/
def arguments (const : Bool) (room : Nat) : Parser (List Argument) :=
  optBetween .parenL (argument const room) .parenR

/-- Read a directive. -/
def directive (const : Bool) (room : Nat) : Parser Directive := do
  let start ← place
  expectMark .atSign
  let n ← name
  let args ← arguments const room
  return { name := n, arguments := args, span := ← spanFrom start }

/-- Read all directives at the head. -/
def directives (const : Bool) (room : Nat) : Parser (List Directive) :=
  repeated (peekMark .atSign) (directive const room)

/-- Read directives without variables. -/
def constDirectives : Parser (List Directive) := directives true depthRoom

/-- Read a type reference; `nested` reads the one inside a list, where there is room for it. -/
def typeRefWith (nested : Option (Parser TypeRef)) : Parser TypeRef := do
  let start ← place
  let inner ←
    if ← optMark .bracketL then
      match nested with
      | some nested =>
        let item ← nested
        expectMark .bracketR
        pure (.list item (← spanFrom start))
      | none => fail .tooDeep
    else
      pure (.named (← name))
  if ← optMark .bang then
    return .nonNull inner (← spanFrom start)
  else
    return inner

/-- Read a type reference. -/
def typeRef : Nat → Parser TypeRef
  | 0 => typeRefWith none
  | room + 1 => typeRefWith (some (typeRef room))

/-- Whether a description is at the head. -/
def peekDescription : Parser Bool := do
  match (← current).kind with
  | .string _ | .block _ => return true
  | _ => return false

/-- Read a description, if there is one. -/
def description : Parser (Option Description) := do
  let t ← current
  match t.kind with
  | .string s =>
    advance
    return some { text := s, block := false, span := some t.span }
  | .block s =>
    advance
    return some { text := s, block := true, span := some t.span }
  | _ => return none

/-- Read a default value, if there is one. -/
def defaultValue : Parser (Option Value) := do
  if ← optMark .equals then return some (← value true depthRoom) else return none

end RelationApi.Sdl.Parser
