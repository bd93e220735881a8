import RelationApi.Sdl.Document
import RelationApi.Sdl.Parser.Value

/-!
# Parsing type systems

The definitions of types, schemas and directives, and their extensions. A type and an extension of
it are read by the same parser, which starts at the keyword of the kind (`typeBody?`).
-/

namespace RelationApi.Sdl.Parser

/-- Read an argument definition or the field of an input type. -/
def inputValue : Parser InputValue := do
  let d ← description
  let n ← name
  expectMark .colon
  let t ← typeRef depthRoom
  let v ← defaultValue
  return { description := d, name := n, type := t, default := v, directives := ← constDirectives }

/-- Read argument definitions, if there are any. -/
def argumentDefs : Parser (List InputValue) :=
  optBetween .parenL inputValue .parenR

/-- Read a field definition. -/
def field : Parser Field := do
  let d ← description
  let n ← name
  let args ← argumentDefs
  expectMark .colon
  let t ← typeRef depthRoom
  return { description := d, name := n, arguments := args, type := t,
           directives := ← constDirectives }

/-- Read the interfaces that a type implements, if there are any. -/
def interfaces : Parser (List Name) := do
  if ← optKeyword "implements" then separatedBy .amp name else return []

/-- Read an object type or an interface, from its name on. -/
def objectType (d : Option Description) : Parser ObjectType := do
  let n ← name
  let is ← interfaces
  let ds ← constDirectives
  let fs ← optBetween .braceL field .braceR
  return { description := d, name := n, interfaces := is, directives := ds, fields := fs }

/-- Read a scalar type, from its name on. -/
def scalarType (d : Option Description) : Parser ScalarType := do
  let n ← name
  return { description := d, name := n, directives := ← constDirectives }

/-- Read a union type, from its name on. -/
def unionType (d : Option Description) : Parser UnionType := do
  let n ← name
  let ds ← constDirectives
  let ms ← if ← optMark .equals then separatedBy .pipe name else pure []
  return { description := d, name := n, directives := ds, members := ms }

/-- Read the name of an enum value, which is none of the names of other values. -/
def enumValueName : Parser Name := do
  let t ← current
  if t.kind.value?.any (["true", "false", "null"].contains ·) then fail (.reservedEnumValue t.kind)
  name

/-- Read an enum value. -/
def enumValue : Parser EnumValue := do
  let d ← description
  let n ← enumValueName
  return { description := d, name := n, directives := ← constDirectives }

/-- Read an enum type, from its name on. -/
def enumType (d : Option Description) : Parser EnumType := do
  let n ← name
  let ds ← constDirectives
  let vs ← optBetween .braceL enumValue .braceR
  return { description := d, name := n, directives := ds, values := vs }

/-- Read an input type, from its name on. -/
def inputType (d : Option Description) : Parser InputType := do
  let n ← name
  let ds ← constDirectives
  let fs ← optBetween .braceL inputValue .braceR
  return { description := d, name := n, directives := ds, fields := fs }

/-- The parser for the type of the given keyword, from its name on. -/
def typeBody? : String → Option (Option Description → Parser TypeDef)
  | "scalar" => some fun d => .scalar <$> scalarType d
  | "type" => some fun d => .object <$> objectType d
  | "interface" => some fun d => .interface <$> objectType d
  | "union" => some fun d => .union <$> unionType d
  | "enum" => some fun d => .enum <$> enumType d
  | "input" => some fun d => .input <$> inputType d
  | _ => none

/-- Read the keyword of an operation. -/
def operationKind : Parser OperationKind := do
  let n ← name
  match OperationKind.ofKeyword? n.text with
  | some k => return k
  | none => fail (.unexpected (.name n.text))

/-- Read the root type of an operation. -/
def rootType : Parser (OperationKind × Name) := do
  let k ← operationKind
  expectMark .colon
  return (k, ← name)

/-- Read a schema definition, after its keyword. -/
def schemaDef (d : Option Description) : Parser SchemaDef := do
  let ds ← constDirectives
  let rs ← someBetween .braceL rootType .braceR
  return { description := d, directives := ds, roots := rs }

/-- Read an extension of the schema, after its keyword. -/
def schemaExtension : Parser SchemaDef := do
  let ds ← constDirectives
  let rs ← optBetween .braceL rootType .braceR
  if ds.isEmpty && rs.isEmpty then unexpected
  return { directives := ds, roots := rs }

/-- The places where a directive can stand. -/
def directiveLocations : List String :=
  ["QUERY", "MUTATION", "SUBSCRIPTION", "FIELD", "FRAGMENT_DEFINITION", "FRAGMENT_SPREAD",
    "INLINE_FRAGMENT", "VARIABLE_DEFINITION", "FRAGMENT_VARIABLE_DEFINITION", "SCHEMA", "SCALAR",
    "OBJECT", "FIELD_DEFINITION", "ARGUMENT_DEFINITION", "INTERFACE", "UNION", "ENUM",
    "ENUM_VALUE", "INPUT_OBJECT", "INPUT_FIELD_DEFINITION", "DIRECTIVE_DEFINITION"]

/-- Read the name of a directive location. -/
def directiveLocation : Parser Name := do
  let n ← name
  if directiveLocations.contains n.text then return n else fail (.unexpected (.name n.text))

/-- Read the definition of a directive, after its keyword. -/
def directiveDef (d : Option Description) : Parser DirectiveDef := do
  expectMark .atSign
  let n ← name
  let args ← argumentDefs
  let ds ← constDirectives
  let r ← optKeyword "repeatable"
  expectKeyword "on"
  let ls ← separatedBy .pipe directiveLocation
  return { description := d, name := n, arguments := args, directives := ds, repeatable := r,
           locations := ls }

/-- Read an extension of a directive, after its keyword. -/
def directiveExtension : Parser Definition := do
  expectMark .atSign
  let n ← name
  let ds ← constDirectives
  if ds.isEmpty then unexpected
  return .directiveExtension n ds

/-- The parser for the definition of the given keyword, after the keyword. -/
def typeSystemBody? : String → Option (Option Description → Parser Definition)
  | "schema" => some fun d => .schema <$> schemaDef d
  | "directive" => some fun d => .directiveDef <$> directiveDef d
  | keyword => (typeBody? keyword).map fun body d => .typeDef <$> body d

/-- Read an extension of a type, which has to add something. -/
def typeExtension (body : Parser TypeDef) : Parser Definition := do
  let t ← body
  if t.addsAnything then return .typeExtension t else unexpected

/-- The parser for the extension of the given keyword, after the keyword. -/
def extensionBody? : String → Option (Parser Definition)
  | "schema" => some (.schemaExtension <$> schemaExtension)
  | "directive" => some directiveExtension
  | keyword => (typeBody? keyword).map fun body => typeExtension (body none)

/-- Read an extension, with its first keyword at the head. -/
def extension : Parser Definition := do
  let next ← lookahead
  let body? := match next with
    | .name keyword => extensionBody? keyword
    | _ => none
  match body? with
  | some body =>
    advance
    advance
    body
  | none => fail (.unexpected next)

end RelationApi.Sdl.Parser
