import RelationApi.Sdl.Printer.Layout

/-!
# Forms

How the parts of a document are put together once they are printed. Each form takes printed parts
and gives the printed whole; parts that are empty leave no trace. A list or an object stands on one
line if it fits (`Layout.lineRoom`), and otherwise takes a line for each item.
-/

namespace RelationApi.Sdl.Form

open Layout

/-- A list value. -/
def list (items : List (List Char)) : List Char :=
  let line := '[' :: joined ", " items ++ [']']
  if line.length > lineRoom then "[\n".toList ++ indented (joined "\n" items) ++ "\n]".toList
  else line

/-- An object value. -/
def object (fields : List (List Char)) : List Char :=
  let line := "\x7b ".toList ++ joined ", " fields ++ " \x7d".toList
  if line.length > lineRoom then block fields else line

/-- A name with what it stands for : an argument, or a field of an object value. -/
def entry (name value : List Char) : List Char := name ++ ": ".toList ++ value

/-- A directive. -/
def directive (name : List Char) (arguments : List (List Char)) : List Char :=
  '@' :: name ++ wrapped "(" (joined ", " arguments) ")"

/-- Directives, with blanks between them. -/
def directives (ds : List (List Char)) : List Char := joined " " ds

/-- A definition below its description, which has lines of its own. -/
def described (description definition : List Char) : List Char :=
  wrapped "" description "\n" ++ definition

/-- Argument definitions : on one line, or on a line each if one of them takes several. -/
def argumentDefs (items : List (List Char)) : List Char :=
  if someMultiline items then enclosed "(" items ")" else wrapped "(" (joined ", " items) ")"

/-- An argument definition, or the field of an input type; `head` is its name and whatever belongs
to the name. -/
def inputValue (description head type default : List Char) (ds : List (List Char)) : List Char :=
  described description <| joined " " [entry head type, wrapped "= " default, directives ds]

/-- A field definition. -/
def field (description name : List Char) (arguments : List (List Char))
    (type default : List Char) (ds : List (List Char)) : List Char :=
  inputValue description (name ++ argumentDefs arguments) type default ds

/-- An object type or an interface after its keyword. -/
def objectParts (name : List Char) (interfaces ds fields : List (List Char)) : List (List Char) :=
  [name, wrapped "implements " (joined " & " interfaces), directives ds, block fields]

/-- An object type. -/
def objectType (description name : List Char) (interfaces ds fields : List (List Char)) :
    List Char :=
  described description <| joined " " ("type".toList :: objectParts name interfaces ds fields)

/-- An input type after its keyword. -/
def inputParts (name : List Char) (ds fields : List (List Char)) : List (List Char) :=
  [name, directives ds, block fields]

/-- An input type. -/
def inputType (description name : List Char) (ds fields : List (List Char)) : List Char :=
  described description <| joined " " ("input".toList :: inputParts name ds fields)

/-- A document : definitions with a blank line between any two. -/
def document (definitions : List (List Char)) : List Char := joined "\n\n" definitions

end RelationApi.Sdl.Form
