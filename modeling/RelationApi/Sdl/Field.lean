import RelationApi.Sdl.Value

/-!
# Fields

Type references, directives, arguments and fields : the parts that type definitions are made of.
Parts that were made, rather than read, come from the defaults : no place, no arguments, no
directives, no description.

Arguments, input values and fields keep no place of their own, only their parts do. Nothing is lost
by that. Each has a name, which has its place if the part was read and no place if the part was
made, and two parts of one text whose names stand in the same place are one part. So where places
tell two parts apart, those of their names do.
-/

namespace RelationApi.Sdl

/-- The text that describes a definition or a part of one. -/
structure Description where
  text : String
  block : Bool := false
  span : Option Span := none
deriving DecidableEq

/-- A reference to a type. -/
inductive TypeRef where
  | named (name : Name)
  | list (item : TypeRef) (span : Option Span)
  | nonNull (item : TypeRef) (span : Option Span)
deriving DecidableEq

/-- How a reference wraps the type it names, innermost first. -/
structure Wrapping where
  nonNullName : Bool := false
  list : Bool := false
  nonNullList : Bool := false

namespace TypeRef

/-- The name inside all lists and non-null marks. -/
def typeName : TypeRef → String
  | named n => n.text
  | list t _ | nonNull t _ => t.typeName

/-- The reference that wraps `name`; a non-null mark of the list counts only if there is one. -/
def ofName (name : String) (w : Wrapping := {}) : TypeRef :=
  let inner : TypeRef := named { text := name }
  let inner := if w.nonNullName then nonNull inner none else inner
  if w.list then
    if w.nonNullList then nonNull (list inner none) none else list inner none
  else inner

end TypeRef

/-- A named argument of a directive or a field. -/
structure Argument where
  name : Name
  value : Value
deriving DecidableEq

/-- The use of a directive. -/
structure Directive where
  name : Name
  arguments : List Argument := []
  span : Option Span := none
deriving DecidableEq

/-- The value of the first argument with the given name. -/
def Directive.argument? (d : Directive) (name : String) : Option Value :=
  (d.arguments.find? fun a => a.name.text = name).map Argument.value

/-- What the first argument with the given name says as an attribute. -/
def Directive.attribute (d : Directive) (name : String) : Scalar :=
  ((d.argument? name).map Value.scalar).getD .missing

/-- An argument of a field definition, or a field of an input type. -/
structure InputValue where
  description : Option Description := none
  name : Name
  type : TypeRef
  default : Option Value := none
  directives : List Directive := []
deriving DecidableEq

/-- A field of an object type or an interface. It has a default value only if it was made from an
input value (`InputValue.toField`). -/
structure Field where
  description : Option Description := none
  name : Name
  arguments : List InputValue := []
  type : TypeRef
  default : Option Value := none
  directives : List Directive := []
deriving DecidableEq

namespace Field

/-- The field without its arguments, and without a default value. -/
def withoutArguments (f : Field) : Field := { f with arguments := [], default := none }

/-- The input value of the same name, type and directives. -/
def toInputValue (f : Field) : InputValue :=
  { name := { text := f.name.text }, type := f.type, directives := f.directives }

/-- The first field with the given name. -/
def find? (fields : List Field) (name : String) : Option Field :=
  List.find? (fun f => f.name.text = name) fields

end Field

namespace InputValue

/-- The first input value with the given name. -/
def find? (values : List InputValue) (name : String) : Option InputValue :=
  List.find? (fun v => v.name.text = name) values

/-- The field with all that the input value has. -/
def toField (v : InputValue) : Field :=
  { description := v.description
    name := v.name
    type := v.type
    default := v.default
    directives := v.directives }

end InputValue

end RelationApi.Sdl
