import RelationApi.Proofs.Sdl.Legible

/-!
# The tokens of a part

Each part of a type system is written as a row of tokens, whatever the layout. The parsers take
these rows, and the printers spell them. Operations and fragments are left out : they have no
tokens here.
-/

namespace RelationApi.Sdl

/-- Rows between two marks; nothing if there are none. -/
def tokensBetween (op : Mark) (rows : List (List TokenKind)) (close : Mark) : List TokenKind :=
  if rows.isEmpty then [] else .mark op :: (rows.flatten ++ [.mark close])

/-- Names with a mark between any two. -/
def nameTokens (sep : Mark) : List Name → List TokenKind
  | [] => []
  | n :: ns => .name n.text :: ns.flatMap fun n => [.mark sep, .name n.text]

namespace Value

mutual

/-- The tokens of a value. -/
def tokens : Value → List TokenKind
  | .variable n => [.mark .dollar, .name n.text]
  | .int t _ => [.int t]
  | .float t _ => [.float t]
  | .string v block _ => [.ofText block v.display]
  | .boolean b _ => [.name (if b then "true" else "false")]
  | .null _ => [.name "null"]
  | .enum v _ => [.name v.display]
  | .list items _ => .mark .bracketL :: (itemTokens items ++ [.mark .bracketR])
  | .object fields _ => .mark .braceL :: (fieldTokens fields ++ [.mark .braceR])

/-- The tokens of every value. -/
def itemTokens : List Value → List TokenKind
  | [] => []
  | v :: vs => tokens v ++ itemTokens vs

/-- The tokens of every object field. -/
def fieldTokens : List (Name × Value) → List TokenKind
  | [] => []
  | (n, v) :: fs => .name n.text :: .mark .colon :: (tokens v ++ fieldTokens fs)

end

end Value

/-- The tokens of an argument. -/
def Argument.tokens (a : Argument) : List TokenKind :=
  .name a.name.text :: .mark .colon :: a.value.tokens

/-- The tokens of a directive; no parentheses if it has no arguments. -/
def Directive.tokens (d : Directive) : List TokenKind :=
  .mark .atSign :: .name d.name.text ::
    tokensBetween .parenL (d.arguments.map Argument.tokens) .parenR

/-- The tokens of directives. -/
def directiveTokens (ds : List Directive) : List TokenKind := ds.flatMap Directive.tokens

/-- The tokens of a type reference. -/
def TypeRef.tokens : TypeRef → List TokenKind
  | named n => [.name n.text]
  | list t _ => .mark .bracketL :: (t.tokens ++ [.mark .bracketR])
  | nonNull t _ => t.tokens ++ [.mark .bang]

/-- The tokens of a description, if there is one. -/
def descriptionTokens (d : Option Description) : List TokenKind :=
  (d.map fun d => .ofText d.block d.text).toList

/-- The tokens of a default value, if there is one. -/
def defaultTokens (v : Option Value) : List TokenKind :=
  (v.map fun v => .mark .equals :: v.tokens).getD []

/-- The tokens of an input value, from its description on. -/
def InputValue.tokens (v : InputValue) : List TokenKind :=
  descriptionTokens v.description ++ .name v.name.text :: .mark .colon ::
    (v.type.tokens ++ (defaultTokens v.default ++ directiveTokens v.directives))

/-- The tokens of a field, from its description on. A field has no default value in a text. -/
def Field.tokens (f : Field) : List TokenKind :=
  descriptionTokens f.description ++ .name f.name.text ::
    (tokensBetween .parenL (f.arguments.map InputValue.tokens) .parenR ++
      .mark .colon :: (f.type.tokens ++ directiveTokens f.directives))

/-- The tokens of the interfaces that a type implements, if there are any. -/
def interfaceTokens (ns : List Name) : List TokenKind :=
  if ns.isEmpty then [] else .name "implements" :: nameTokens .amp ns

/-- The tokens of an object type or an interface, from its name on. -/
def ObjectType.tokens (t : ObjectType) : List TokenKind :=
  .name t.name.text :: (interfaceTokens t.interfaces ++ (directiveTokens t.directives ++
    tokensBetween .braceL (t.fields.map Field.tokens) .braceR))

/-- The tokens of a scalar type, from its name on. -/
def ScalarType.tokens (t : ScalarType) : List TokenKind :=
  .name t.name.text :: directiveTokens t.directives

/-- The tokens of the members of a union type, if there are any. -/
def memberTokens (ns : List Name) : List TokenKind :=
  if ns.isEmpty then [] else .mark .equals :: nameTokens .pipe ns

/-- The tokens of a union type, from its name on. -/
def UnionType.tokens (t : UnionType) : List TokenKind :=
  .name t.name.text :: (directiveTokens t.directives ++ memberTokens t.members)

/-- The tokens of an enum value, from its description on. -/
def EnumValue.tokens (v : EnumValue) : List TokenKind :=
  descriptionTokens v.description ++ .name v.name.text :: directiveTokens v.directives

/-- The tokens of an enum type, from its name on. -/
def EnumType.tokens (t : EnumType) : List TokenKind :=
  .name t.name.text :: (directiveTokens t.directives ++
    tokensBetween .braceL (t.values.map EnumValue.tokens) .braceR)

/-- The tokens of an input type, from its name on. -/
def InputType.tokens (t : InputType) : List TokenKind :=
  .name t.name.text :: (directiveTokens t.directives ++
    tokensBetween .braceL (t.fields.map InputValue.tokens) .braceR)

namespace TypeDef

/-- The keyword of the type's kind. -/
def keyword : TypeDef → String
  | scalar _ => "scalar"
  | object _ => "type"
  | interface _ => "interface"
  | union _ => "union"
  | enum _ => "enum"
  | input _ => "input"

/-- The tokens of a type, from its name on. -/
def tokens : TypeDef → List TokenKind
  | scalar t => t.tokens
  | object t | interface t => t.tokens
  | union t => t.tokens
  | enum t => t.tokens
  | input t => t.tokens

end TypeDef

/-- The tokens of the root type of an operation. -/
def rootTokens (r : OperationKind × Name) : List TokenKind :=
  [.name r.1.keyword, .mark .colon, .name r.2.text]

/-- The tokens of a schema definition, after its keyword. -/
def SchemaDef.tokens (s : SchemaDef) : List TokenKind :=
  directiveTokens s.directives ++ tokensBetween .braceL (s.roots.map rootTokens) .braceR

/-- The tokens of a directive definition, after its keyword. -/
def DirectiveDef.tokens (d : DirectiveDef) : List TokenKind :=
  .mark .atSign :: .name d.name.text ::
    (tokensBetween .parenL (d.arguments.map InputValue.tokens) .parenR ++
      (directiveTokens d.directives ++ ((if d.repeatable then [.name "repeatable"] else []) ++
        .name "on" :: nameTokens .pipe d.locations)))

/-- The tokens of a definition. -/
def Definition.tokens : Definition → List TokenKind
  | operation _ | fragment _ => []
  | schema s => descriptionTokens s.description ++ .name "schema" :: s.tokens
  | schemaExtension s => .name "extend" :: .name "schema" :: s.tokens
  | typeDef t => descriptionTokens t.description ++ .name t.keyword :: t.tokens
  | typeExtension t => .name "extend" :: .name t.keyword :: t.tokens
  | directiveDef d => descriptionTokens d.description ++ .name "directive" :: d.tokens
  | directiveExtension n ds =>
    .name "extend" :: .name "directive" :: .mark .atSign :: .name n.text :: directiveTokens ds

/-- Whether the definition belongs to a type system : it is no operation and no fragment. -/
def Definition.isTypeSystem : Definition → Bool
  | operation _ | fragment _ => false
  | _ => true

end RelationApi.Sdl
