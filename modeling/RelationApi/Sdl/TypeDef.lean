import RelationApi.Sdl.Field

/-!
# Type definitions

The six kinds of types that a schema can define. An extension of a type has the parts of the type it
extends, apart from a description, so the two share these structures. `ObjectType.merge` folds an
extension into the type it extends.

As with fields, the place of a type is that of its name. A generated type has a name without a
place. So where it takes the place of another definition (`Event.replaced`), it differs from every
type that was read, and from a generated one only in its parts.
-/

namespace RelationApi.Sdl

/-- A scalar type. -/
structure ScalarType where
  description : Option Description := none
  name : Name
  directives : List Directive := []
deriving DecidableEq

/-- An object type, or an interface, which has the same parts. -/
structure ObjectType where
  description : Option Description := none
  name : Name
  interfaces : List Name := []
  directives : List Directive := []
  fields : List Field := []
deriving DecidableEq

/-- A union type. -/
structure UnionType where
  description : Option Description := none
  name : Name
  directives : List Directive := []
  members : List Name := []
deriving DecidableEq

/-- One value of an enum type. -/
structure EnumValue where
  description : Option Description := none
  name : Name
  directives : List Directive := []
deriving DecidableEq

/-- An enum type. -/
structure EnumType where
  description : Option Description := none
  name : Name
  directives : List Directive := []
  values : List EnumValue := []
deriving DecidableEq

/-- An input object type. -/
structure InputType where
  description : Option Description := none
  name : Name
  directives : List Directive := []
  fields : List InputValue := []
deriving DecidableEq

/-- A type of any kind. -/
inductive TypeDef where
  | scalar (type : ScalarType)
  | object (type : ObjectType)
  | interface (type : ObjectType)
  | union (type : UnionType)
  | enum (type : EnumType)
  | input (type : InputType)
deriving DecidableEq

namespace TypeDef

/-- The name node of the type. -/
def nameNode : TypeDef → Name
  | scalar t => t.name
  | object t | interface t => t.name
  | union t => t.name
  | enum t => t.name
  | input t => t.name

/-- The name of the type. -/
def name (t : TypeDef) : String := t.nameNode.text

/-- The object type, if it is one. -/
def object? : TypeDef → Option ObjectType
  | object t => some t
  | _ => none

/-- Whether an extension with these parts adds anything. -/
def addsAnything : TypeDef → Bool
  | scalar t => !t.directives.isEmpty
  | object t | interface t => !(t.interfaces.isEmpty && t.directives.isEmpty && t.fields.isEmpty)
  | union t => !(t.directives.isEmpty && t.members.isEmpty)
  | enum t => !(t.directives.isEmpty && t.values.isEmpty)
  | input t => !(t.directives.isEmpty && t.fields.isEmpty)

end TypeDef

namespace ObjectType

/-- The type with the interfaces, directives and fields of an extension after its own. -/
def merge (t e : ObjectType) : ObjectType :=
  { t with
    interfaces := t.interfaces ++ e.interfaces
    directives := t.directives ++ e.directives
    fields := t.fields ++ e.fields }

/-- The type with one more field, after its own. -/
def append (t : ObjectType) (f : Field) : ObjectType :=
  { t with fields := t.fields ++ [f] }

/-- The first field with the given name. -/
def field? (t : ObjectType) (name : String) : Option Field :=
  Field.find? t.fields name

end ObjectType

end RelationApi.Sdl
