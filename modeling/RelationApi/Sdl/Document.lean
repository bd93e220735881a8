import RelationApi.Sdl.TypeDef

/-!
# Documents

A document is a list of definitions. Besides types it may hold schema and directive definitions,
extensions of all of these, and the executable definitions : operations and fragments.
-/

namespace RelationApi.Sdl

/-- The three kinds of operations. -/
inductive OperationKind where
  | query
  | mutation
  | subscription
deriving DecidableEq

namespace OperationKind

/-- All kinds, in order. -/
def all : List OperationKind := [query, mutation, subscription]

/-- The keyword of the kind. -/
def keyword : OperationKind → String
  | query => "query"
  | mutation => "mutation"
  | subscription => "subscription"

/-- The name of the kind's root type when the schema does not choose another. -/
def rootName : OperationKind → String
  | query => "Query"
  | mutation => "Mutation"
  | subscription => "Subscription"

/-- The kind with the given keyword. -/
def ofKeyword? (s : String) : Option OperationKind :=
  all.find? fun k => k.keyword = s

end OperationKind

/-- A variable of an operation. -/
structure VariableDef where
  description : Option Description := none
  name : Name
  type : TypeRef
  default : Option Value := none
  directives : List Directive := []

/-- One selection of an operation or a fragment. -/
inductive Selection where
  | field (label : Option Name) (name : Name) (arguments : List Argument)
      (directives : List Directive) (selections : Option (List Selection))
  | spread (name : Name) (directives : List Directive)
  | inline (condition : Option Name) (directives : List Directive) (selections : List Selection)

/-- An operation. -/
structure Operation where
  description : Option Description := none
  kind : OperationKind
  name : Option Name := none
  variableDefs : List VariableDef := []
  directives : List Directive := []
  selections : List Selection

/-- A fragment. -/
structure Fragment where
  description : Option Description := none
  name : Name
  condition : Name
  directives : List Directive := []
  selections : List Selection

/-- A schema definition : the type at the root of each operation. -/
structure SchemaDef where
  description : Option Description := none
  directives : List Directive := []
  roots : List (OperationKind × Name) := []

/-- The definition of a directive. -/
structure DirectiveDef where
  description : Option Description := none
  name : Name
  arguments : List InputValue := []
  directives : List Directive := []
  repeatable : Bool := false
  locations : List Name := []

/-- One definition of a document. -/
inductive Definition where
  | operation (operation : Operation)
  | fragment (fragment : Fragment)
  | schema (schema : SchemaDef)
  | schemaExtension (schema : SchemaDef)
  | typeDef (type : TypeDef)
  | typeExtension (type : TypeDef)
  | directiveDef (directive : DirectiveDef)
  | directiveExtension (name : Name) (directives : List Directive)

namespace Definition

/-- The object type that the definition defines. -/
def objectType? : Definition → Option ObjectType
  | typeDef (.object t) => some t
  | _ => none

/-- The object type extension that the definition is. -/
def objectExtension? : Definition → Option ObjectType
  | typeExtension (.object t) => some t
  | _ => none

/-- The type that the definition defines. -/
def type? : Definition → Option TypeDef
  | typeDef t => some t
  | _ => none

theorem type?_eq_some_iff (d : Definition) (t : TypeDef) : d.type? = some t ↔ d = typeDef t := by
  cases d <;> simp [type?]

/-- The name of what is defined or extended; an operation may lack one, and a schema has none. -/
def name? : Definition → Option String
  | operation o => o.name.map Name.text
  | fragment f => some f.name.text
  | schema _ | schemaExtension _ => none
  | typeDef t | typeExtension t => some t.name
  | directiveDef d => some d.name.text
  | directiveExtension n _ => some n.text

/-- The fields of the definition : those of an object type, an interface or an input type, or of an
extension of one. Other definitions have nothing to do with fields. -/
def fields? : Definition → Option (List Field)
  | typeDef (.object t) | typeDef (.interface t)
  | typeExtension (.object t) | typeExtension (.interface t) => some t.fields
  | typeDef (.input t) | typeExtension (.input t) => some (t.fields.map InputValue.toField)
  | _ => none

/-- The object type or the interface that the definition defines. -/
def objectLike? : Definition → Option ObjectType
  | typeDef (.object t) | typeDef (.interface t) => some t
  | _ => none

/-- What the definition could add to an object type. -/
def addition? : Definition → Option ObjectType
  | typeExtension (.object t) | typeExtension (.interface t) => some t
  | d => d.objectLike?

end Definition

/-- A list of definitions. -/
structure Document where
  definitions : List Definition

end RelationApi.Sdl
