import RelationApi.Sdl.Printer.TypeSystem

/-!
# Printing documents

The executable definitions, and with them whole documents : the definitions with a blank line
between any two.
-/

namespace RelationApi.Sdl

open Layout

/-- A variable definition. -/
def VariableDef.print (v : VariableDef) : List Char :=
  described v.description <|
    '$' :: v.name.print ++ ": ".toList ++ v.type.print ++
      wrapped " = " (printDefault v.default) ++
      wrapped " " (printDirectives v.directives)

/-- Variable definitions : on one line, or on a line each if one of them takes several. -/
def printVariables (vs : List VariableDef) : List Char :=
  let items := vs.map VariableDef.print
  if someMultiline items then wrapped "(\n" (joined "\n" items) "\n)"
  else wrapped "(" (joined ", " items) ")"

/-- The selections between braces, which stay if there are none. -/
def printSelectionBlock (items : List (List Char)) : List Char :=
  if items.isEmpty then "\x7b\x7d".toList else block items

/-- A selected field up to its arguments, which take a line each if one line does not hold them. -/
def printCall (label : Option Name) (name : Name) (args : List Argument) : List Char :=
  let head := wrapped "" ((label.map Name.print).getD []) ": " ++ name.print
  let items := args.map Argument.print
  let line := head ++ wrapped "(" (joined ", " items) ")"
  if line.length > lineRoom then head ++ enclosed "(" items ")" else line

namespace Selection

mutual

/-- A selection as it is written. -/
def print : Selection → List Char
  | .field label name args ds none =>
    joined " " [printCall label name args, printDirectives ds]
  | .field label name args ds (some ss) =>
    joined " " [printCall label name args, printDirectives ds,
      printSelectionBlock (printAll ss)]
  | .spread name ds => "...".toList ++ name.print ++ wrapped " " (printDirectives ds)
  | .inline condition ds ss =>
    joined " " ["...".toList, wrapped "on " ((condition.map Name.print).getD []),
      printDirectives ds, printSelectionBlock (printAll ss)]

/-- Every selection as it is written. -/
def printAll : List Selection → List (List Char)
  | [] => []
  | s :: ss => print s :: printAll ss

end

end Selection

/-- A selection set as it is written. -/
def printSelections (ss : List Selection) : List Char :=
  printSelectionBlock (Selection.printAll ss)

/-- An operation without its description; a query that has only selections, and no description,
needs no keyword. -/
def Operation.printBody (o : Operation) : List Char :=
  let head := joined " "
    [o.kind.keyword.toList,
      joined "" [(o.name.map Name.print).getD [], printVariables o.variableDefs],
      printDirectives o.directives]
  (if o.description.isNone && head = "query".toList then [] else head ++ [' ']) ++
    printSelections o.selections

/-- A fragment without its description. -/
def Fragment.printBody (f : Fragment) : List Char :=
  "fragment ".toList ++ f.name.print ++ " on ".toList ++ f.condition.print ++ [' '] ++
    wrapped "" (printDirectives f.directives) " " ++ printSelections f.selections

/-- A definition as it is written. -/
def Definition.print : Definition → List Char
  | operation o => described o.description o.printBody
  | fragment f => described f.description f.printBody
  | schema s => described s.description s.printBody
  | schemaExtension s => "extend ".toList ++ s.printBody
  | typeDef t => t.print
  | typeExtension t => "extend ".toList ++ t.printBody
  | directiveDef d => described d.description d.printBody
  | directiveExtension n ds =>
    joined " " ["extend directive @".toList ++ n.print, printDirectives ds]

namespace Document

/-- The characters of the document. -/
def printChars (d : Document) : List Char :=
  Form.document (d.definitions.map Definition.print)

/-- The document as a text. -/
def print (d : Document) : String := String.ofList d.printChars

end Document

end RelationApi.Sdl
