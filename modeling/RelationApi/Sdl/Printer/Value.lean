import RelationApi.Sdl.BlockText
import RelationApi.Sdl.Field
import RelationApi.Sdl.Printer.Form
import RelationApi.Text.Hex

/-!
# Printing values, types and directives

Strings escape quotes, backslashes and control characters. An enum value that says no text cannot
be written (`Value.isWritable`); such a value comes only from a part that was made.
-/

namespace RelationApi.Sdl

open Layout

namespace Quote

/-- A character as it stands in a quoted string. -/
def escapeChar (c : Char) : List Char :=
  match c with
  | '"' => ['\\', '"']
  | '\\' => ['\\', '\\']
  | '\x08' => ['\\', 'b']
  | '\t' => ['\\', 't']
  | '\n' => ['\\', 'n']
  | '\x0c' => ['\\', 'f']
  | '\r' => ['\\', 'r']
  | _ =>
    if c.toNat < 0x20 ∨ (0x7F ≤ c.toNat ∧ c.toNat < 0xA0) then
      '\\' :: 'u' :: Text.hexUpper 4 c.toNat
    else [c]

/-- The text as a quoted string. -/
def print (cs : List Char) : List Char :=
  '"' :: cs.flatMap escapeChar ++ ['"']

end Quote

/-- A text as a quoted or a block string. -/
def printText (block : Bool) (text : String) : List Char :=
  if block then BlockText.print text.toList else Quote.print text.toList

/-- The name's text. -/
def Name.print (n : Name) : List Char := n.text.toList

namespace Value

/-- A boolean. -/
def printBoolean (b : Bool) : List Char := if b then "true".toList else "false".toList

mutual

/-- The value as it is written in a document. -/
def print : Value → List Char
  | .variable n => '$' :: n.print
  | .int t _ | .float t _ => t.toList
  | .string v block _ => printText block v.display
  | .boolean b _ => printBoolean b
  | .null _ => "null".toList
  | .enum v _ => v.display.toList
  | .list items _ => Form.list (printItems items)
  | .object fields _ => Form.object (printFields fields)

/-- Every value as it is written. -/
def printItems : List Value → List (List Char)
  | [] => []
  | v :: vs => print v :: printItems vs

/-- Every object field as it is written. -/
def printFields : List (Name × Value) → List (List Char)
  | [] => []
  | (n, v) :: fs => Form.entry n.print (print v) :: printFields fs

end

mutual

/-- Whether the value can be written. -/
def isWritable : Value → Bool
  | .enum (.text _) _ => true
  | .enum _ _ => false
  | .list items _ => areWritable items
  | .object fields _ => fieldsWritable fields
  | .variable _ | .int _ _ | .float _ _ | .string _ _ _ | .boolean _ _ | .null _ => true

/-- Whether every value can be written. -/
def areWritable : List Value → Bool
  | [] => true
  | v :: vs => isWritable v && areWritable vs

/-- Whether every object field can be written. -/
def fieldsWritable : List (Name × Value) → Bool
  | [] => true
  | (_, v) :: fs => isWritable v && fieldsWritable fs

end

end Value

/-- An argument as it is written. -/
def Argument.print (a : Argument) : List Char :=
  Form.entry a.name.print a.value.print

/-- A directive as it is written. -/
def Directive.print (d : Directive) : List Char :=
  Form.directive d.name.print (d.arguments.map Argument.print)

/-- Whether the directive can be written. -/
def Directive.isWritable (d : Directive) : Bool := d.arguments.all fun a => a.value.isWritable

/-- Directives, with blanks between them. -/
def printDirectives (ds : List Directive) : List Char :=
  Form.directives (ds.map Directive.print)

/-- A type reference as it is written. -/
def TypeRef.print : TypeRef → List Char
  | named n => n.print
  | list t _ => '[' :: t.print ++ [']']
  | nonNull t _ => t.print ++ ['!']

/-- A description as it is written. -/
def Description.print (d : Description) : List Char := printText d.block d.text

/-- A description that may be missing. -/
def printDescription (d : Option Description) : List Char := (d.map Description.print).getD []

/-- A definition below its description, which has lines of its own. -/
def described (d : Option Description) (definition : List Char) : List Char :=
  Form.described (printDescription d) definition

end RelationApi.Sdl
