import RelationApi.Command.Basic

/-!
# The command line

`main PATH [--out FILE] [--schema NAME]` carries out a request on the files of the system, with the
settings of the library.
-/

namespace RelationApi.Command

/-- The request that command line arguments make, given the path and the options before them. -/
def Request.ofArgs? (path : Option String) (output : Option String) (schema : String) :
    List String → Option Request
  | [] => path.map fun p => { path := p, output := output, schema := schema }
  | "--out" :: file :: rest => ofArgs? path (some file) schema rest
  | "--schema" :: name :: rest => ofArgs? path output name rest
  | p :: rest => if path.isNone then ofArgs? (some p) output schema rest else none

/-- Put the result where the request wants it. -/
def put (request : Request) (text : String) : IO Unit :=
  match request.outputFile? with
  | none => IO.print (Session.endLine text)
  | some path => do
    IO.FS.writeFile path text
    IO.print (Session.endLine (notice path))

/-- Say what went wrong, and end with the code for it. -/
def complain (message : String) : IO UInt32 := do
  IO.eprintln message
  return 1

/-- Carry out the request on the files of the system. -/
def Request.perform (request : Request) : IO UInt32 := do
  let made := augmented (← IO.FS.readBinFile request.path) none request.schema
  for event in made.log do
    if event.level = .warning then IO.eprintln event.message
  match made.result with
  | .error fault => complain fault.message
  | .ok text =>
    put request text
    return 0

end RelationApi.Command

/-- Carry out the request of the command line. -/
def main (args : List String) : IO UInt32 :=
  match RelationApi.Command.Request.ofArgs? none none RelationApi.Settings.defaultSchema args with
  | some request =>
    try request.perform catch fault => RelationApi.Command.complain (toString fault)
  | none => do
    IO.eprintln "usage: PATH [--out FILE] [--schema NAME]"
    return 2
