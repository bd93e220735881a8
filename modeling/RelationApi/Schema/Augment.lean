import RelationApi.Relationship.Discovery
import RelationApi.Relationship.Mutation
import RelationApi.Schema.Roots
import RelationApi.Sdl.Parser.Executable
import RelationApi.Sdl.Printer.Executable

/-!
# Augmenting a schema

The whole run : the types of a document are sorted, the relationships found, their mutations added
one relationship after the other, and the document is put together again. Definitions keep their
places; extensions vanish into the types they extend, and the generated types come last.
-/

namespace RelationApi.Schema

open Sdl

namespace Types

/-- Add the mutations for relationships, one after the other. -/
def addRelationships (types : Types) (s : Settings) : List Relationship → Run Fault Types
  | [] => return types
  | r :: rest => do (← types.addRelationship s r).addRelationships s rest

/-- Add the mutations for all relationships of the types. The settings come as they were resolved :
if that failed, so does this. -/
def augment (types : Types) (resolved : Except SettingsFault Settings) : Run Fault Types := do
  let settings ← Run.ofExcept (resolved.mapError .settings)
  let found ← Run.ofExcept (Relationship.collect types.defined)
  Run.emit (.found found.length)
  types.addRelationships settings found

end Types

/-- What stands in the new document for a definition of the old one. -/
def rebuilt (d : Document) (types : Types) (definition : Definition) : Option Definition :=
  match definition with
  | .typeDef (.object t) =>
    match ((rootNames d).find? t.name.text).bind types.roots.find? with
    | some root => some (.typeDef (.object root))
    | none => some (.typeDef ((types.defined.find? t.name.text).getD (.object t)))
  | .typeExtension (.object t) =>
    if (definedObjects d).contains t.name.text then none else some definition
  | _ => some definition

/-- The document with its types replaced, and the generated types at the end. -/
def rebuild (d : Document) (types : Types) : Document :=
  ⟨d.definitions.filterMap (rebuilt d types) ++ types.generated.values⟩

/-- The document with the mutations for all its relationships. -/
def augment (d : Document) (resolved : Except SettingsFault Settings) : Run Fault Document := do
  let types ← Types.ofDocument d
  return rebuild d (← types.augment resolved)

/-- The definitions that a text spells. -/
def read (text : String) : Except Fault Document :=
  (Document.parse text).mapError fun e => .definition (.unreadable e)

/-- The definitions of a text with the mutations for all their relationships, as a text. -/
def augmentText (text : String) (resolved : Except SettingsFault Settings) :
    Run Fault String := do
  let d ← Run.ofExcept (read text)
  return (← augment d resolved).print

end RelationApi.Schema
