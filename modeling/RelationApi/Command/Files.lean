import RelationApi.Registry

/-!
# Files

A tree of files and directories, as the command line program sees it : every file and directory is
kept under its place, the steps that lead to it from the working directory or from the root. Reading
and writing fail where a path leads nowhere, leads to a directory, or leads through a file, and
where a path or a name in it is too long.
-/

namespace RelationApi

/-- What a path can lead to. -/
inductive Entry where
  | file (content : ByteArray)
  | directory

/-- Files and directories under the steps that lead to them. -/
abbrev FileTree := Registry (List String) Entry

/-- Why a file cannot be read or written. -/
inductive FileFault where
  | missing
  | isDirectory
  | notDirectory
  | nameTooLong
  | nulInPath
deriving DecidableEq

namespace FileFault

/-- The number of the fault, as operating systems count them. -/
def number : FileFault → Nat
  | missing => 2
  | notDirectory => 20
  | isDirectory => 21
  | nulInPath => 22
  | nameTooLong => 36

/-- The wording of the fault. -/
def wording : FileFault → String
  | missing => "No such file or directory"
  | notDirectory => "Not a directory"
  | isDirectory => "Is a directory"
  | nulInPath => "Invalid argument"
  | nameTooLong => "File name too long"

end FileFault

namespace FileTree

/-- The step that leads back to the directory above. -/
def back : String := ".."

/-- The place of the directory that has none above it. -/
def root : List String := ["/"]

/-- The longest name, in bytes. -/
def nameRoom : Nat := 255

/-- The longest path, in bytes. -/
def pathRoom : Nat := 4095

/-- Whether a directory is at the place. The working directory is one, and so are those above it and
every place that something lies below. -/
def isDirectory (t : FileTree) (place : List String) : Bool :=
  place = root || place.all (· = back) ||
    match t.find? place with
    | some .directory => true
    | some (.file _) => false
    | none => t.keys.any fun k => place.isPrefixOf k && k ≠ place

/-- The place one step on : an empty step or a dot stays, and two dots go back, unless that is where
the root is. -/
def step (place : List String) (part : List Char) : List String :=
  if part = [] ∨ part = ['.'] then place
  else if String.ofList part = back then
    if place = root then place
    else if place.all (· = back) then place ++ [back]
    else place.dropLast
  else place ++ [String.ofList part]

/-- The place that the parts of a path lead to; there is a step only from a directory. -/
def walk (t : FileTree) (place : List String) : List (List Char) → Except FileFault (List String)
  | [] => .ok place
  | part :: rest =>
    if t.isDirectory place then
      if nameRoom < (String.ofList part).utf8ByteSize then .error .nameTooLong
      else walk t (step place part) rest
    else if (t.find? place).isSome then .error .notDirectory
    else .error .missing

/-- The place where a path starts, and its parts from there. -/
def start (path : String) : Except FileFault (List String × List (List Char)) :=
  if path.toList.contains '\x00' then .error .nulInPath
  else if pathRoom < path.utf8ByteSize then .error .nameTooLong
  else
    match path.toList with
    | [] => .error .missing
    | '/' :: rest => .ok (root, rest.splitOn '/')
    | cs => .ok ([], cs.splitOn '/')

/-- The content of the file at the end of a path. -/
def read (t : FileTree) (path : String) : Except FileFault ByteArray := do
  let (first, parts) ← start path
  let place ← t.walk first parts
  match t.find? place with
  | some (.file content) => return content
  | _ => throw (if t.isDirectory place then .isDirectory else .missing)

/-- The parts of a path without the empty ones at the end. -/
def named (parts : List (List Char)) : List (List Char) :=
  (parts.reverse.dropWhile List.isEmpty).reverse

/-- The place of a file to write. A path that ends in a slash can only mean a directory, whatever
its last name. -/
def target (t : FileTree) (path : String) : Except FileFault (List String) := do
  let (first, parts) ← start path
  if named parts ≠ parts then
    let _ ← t.walk first ((named parts).dropLast ++ [[]])
    throw .isDirectory
  let place ← t.walk first parts
  if t.isDirectory place then throw .isDirectory
  return place

/-- The tree with the content in the file at the end of a path. -/
def write (t : FileTree) (path : String) (content : ByteArray) : Except FileFault FileTree := do
  return t.insert (← t.target path) (.file content)

end FileTree

end RelationApi
