import RelationApi.Command.Files
import RelationApi.Fault
import RelationApi.Log
import RelationApi.Text.Quoted

/-!
# Sessions

A session works on a machine, which has files, a standard output and a log. It may fail at any step,
and what it did to the machine before that stays done.
-/

namespace RelationApi

/-- Why a command fails. -/
inductive CommandFault where
  | unreadableFile (path : String) (cause : FileFault)
  | notText
  | run (fault : Fault)
  | unwritableFile (path : String) (cause : FileFault)
deriving DecidableEq

namespace CommandFault

/-- How a fault of the file system names its path. -/
def atPath (path : String) (cause : FileFault) : String :=
  "[Errno " ++ toString cause.number ++ "] " ++ cause.wording ++ ": " ++ Text.quoted path

/-- The wording of the fault. -/
def message : CommandFault → String
  | unreadableFile path cause => "Could not read " ++ path ++ ": " ++ atPath path cause
  | notText => "The definitions are not UTF-8"
  | run f => f.message
  | unwritableFile path cause => atPath path cause

end CommandFault

/-- The files, what was printed, and what was reported. -/
structure Machine where
  files : FileTree
  printed : String := ""
  log : List Event := []

/-- Steps on a machine that can fail. -/
abbrev Session := ExceptT CommandFault (StateM Machine)

namespace Session

/-- The content of a file. -/
def readFile (path : String) : Session ByteArray := do
  match (← get).files.read path with
  | .ok content => return content
  | .error cause => throw (.unreadableFile path cause)

/-- Put the content into a file. -/
def writeFile (path : String) (content : ByteArray) : Session Unit := do
  match (← get).files.write path content with
  | .ok files => modify fun m => { m with files := files }
  | .error cause => throw (.unwritableFile path cause)

/-- The text on lines that all end. -/
def endLine (s : String) : String :=
  if s.toList.getLast? = some '\n' then s else s ++ "\n"

/-- Print lines. -/
def print (text : String) : Session Unit :=
  modify fun m => { m with printed := m.printed ++ endLine text }

/-- Do what a run does, and report what it reports. -/
def ofRun {α : Type} (r : Run CommandFault α) : Session α := do
  modify fun m => { m with log := m.log ++ r.log }
  match r.result with
  | .ok a => return a
  | .error fault => throw fault

/-- What becomes of a machine, and how the session ends. -/
def runOn {α : Type} (s : Session α) (m : Machine) : Except CommandFault α × Machine :=
  s.run.run m

end Session

end RelationApi
