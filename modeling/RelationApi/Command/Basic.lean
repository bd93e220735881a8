import RelationApi.Command.Session
import RelationApi.Schema.Augment
import RelationApi.Text.Lines

/-!
# The command

The command reads the definitions of a file, augments them, and writes the result into a file or to
the standard output. Writing comes last, so a command that fails leaves every file as it was.
-/

namespace RelationApi.Command

/-- What the command is asked to do. Without a file to write to, or with an empty name for it, the
result goes to the standard output. -/
structure Request where
  path : String
  output : Option String := none
  schema : String := Settings.defaultSchema

/-- The file that the result goes to. -/
def Request.outputFile? (request : Request) : Option String :=
  request.output.filter (!·.isEmpty)

/-- The definitions that a file holds. -/
def definitions (content : ByteArray) : Except CommandFault String :=
  match String.fromUTF8? content with
  | some text => .ok (Text.unifyLineEnds text)
  | none => .error .notText

/-- The text that the command makes out of the content of a file. -/
def augmented (content : ByteArray) (configuration : Option Data) (schema : String) :
    Run CommandFault String := do
  let text ← Run.ofExcept (definitions content)
  let settings ← Run.ofExcept
    ((Settings.forSchema configuration schema).mapError fun f => .run (.settings f))
  (Schema.augmentText text (.ok settings)).mapFault .run

/-- What the command says about a file that it has written. -/
def notice (path : String) : String := "Schema written to " ++ path

/-- Put the result where the request wants it. -/
def deliver (request : Request) (text : String) : Session Unit :=
  match request.outputFile? with
  | none => Session.print text
  | some path => do
    Session.writeFile path text.toUTF8
    Session.print (notice path)

/-- Carry out a request. -/
def run (configuration : Option Data) (request : Request) : Session Unit := do
  let content ← Session.readFile request.path
  deliver request (← Session.ofRun (augmented content configuration request.schema))

end RelationApi.Command
