import RelationApi.Sdl.Document
import RelationApi.Sdl.Printer.Value

/-!
# Printing type systems

A definition is its keyword and its parts with blanks between them, and a block for the parts that
have lines of their own. An extension is printed like the definition, after the word `extend`.
-/

namespace RelationApi.Sdl

open Layout

/-- A default value that may be missing. -/
def printDefault (v : Option Value) : List Char := (v.map Value.print).getD []

/-- An argument definition, or the field of an input type. -/
def InputValue.print (v : InputValue) : List Char :=
  Form.inputValue (printDescription v.description) v.name.print v.type.print
    (printDefault v.default) (v.directives.map Directive.print)

/-- A field definition. -/
def Field.print (f : Field) : List Char :=
  Form.field (printDescription f.description) f.name.print (f.arguments.map InputValue.print)
    f.type.print (printDefault f.default) (f.directives.map Directive.print)

/-- The parts of an object type or an interface after its keyword. -/
def ObjectType.printParts (t : ObjectType) : List (List Char) :=
  Form.objectParts t.name.print (t.interfaces.map Name.print) (t.directives.map Directive.print)
    (t.fields.map Field.print)

/-- An enum value. -/
def EnumValue.print (v : EnumValue) : List Char :=
  described v.description <| joined " " [v.name.print, printDirectives v.directives]

namespace TypeDef

/-- The description of a type. -/
def description : TypeDef → Option Description
  | scalar t => t.description
  | object t | interface t => t.description
  | union t => t.description
  | enum t => t.description
  | input t => t.description

/-- A type without its description. -/
def printBody : TypeDef → List Char
  | scalar t => joined " " ["scalar".toList, t.name.print, printDirectives t.directives]
  | object t => joined " " ("type".toList :: t.printParts)
  | interface t => joined " " ("interface".toList :: t.printParts)
  | union t =>
    joined " " ["union".toList, t.name.print, printDirectives t.directives,
      wrapped "= " (joined " | " (t.members.map Name.print))]
  | enum t =>
    joined " " ["enum".toList, t.name.print, printDirectives t.directives,
      block (t.values.map EnumValue.print)]
  | input t =>
    joined " " ("input".toList ::
      Form.inputParts t.name.print (t.directives.map Directive.print)
        (t.fields.map InputValue.print))

/-- A type as it is written. -/
def print (t : TypeDef) : List Char := described t.description t.printBody

end TypeDef

/-- An object type as it is written. -/
def ObjectType.print (t : ObjectType) : List Char := (TypeDef.object t).print

/-- The root type of an operation. -/
def printRoot (r : OperationKind × Name) : List Char :=
  r.1.keyword.toList ++ ": ".toList ++ r.2.print

/-- A schema definition without its description. -/
def SchemaDef.printBody (s : SchemaDef) : List Char :=
  joined " " ["schema".toList, printDirectives s.directives, block (s.roots.map printRoot)]

/-- A directive definition without its description. -/
def DirectiveDef.printBody (d : DirectiveDef) : List Char :=
  "directive @".toList ++ d.name.print ++ Form.argumentDefs (d.arguments.map InputValue.print) ++
    wrapped " " (printDirectives d.directives) ++
    (if d.repeatable then " repeatable".toList else []) ++
    " on ".toList ++ joined " | " (d.locations.map Name.print)

end RelationApi.Sdl
