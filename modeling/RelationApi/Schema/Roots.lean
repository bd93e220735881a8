import RelationApi.Fault
import RelationApi.Log
import RelationApi.Schema.Types

/-!
# Roots and extensions

`Types.ofDocument` sorts the types of a document into the roots of the operations and all others,
with every extension of an object type folded into the type. The names of the roots are those of the
last schema definition; without one each operation has a root of its own name.
-/

namespace RelationApi.Schema

open Sdl

/-- The names of the roots when no schema definition gives them. -/
def defaultRootNames : Registry String OperationKind :=
  .ofList (OperationKind.all.map fun k => (k.rootName, k))

/-- The names of the roots; the last schema definition counts. -/
def rootNames (d : Document) : Registry String OperationKind :=
  d.definitions.foldl
    (fun names definition =>
      match definition with
      | .schema s => .ofList (s.roots.map fun r => (r.2.text, r.1))
      | _ => names)
    defaultRootNames

/-- The names of the object types that the document defines. -/
def definedObjects (d : Document) : List String :=
  d.definitions.filterMap fun definition => definition.objectType?.map fun t => t.name.text

/-- The extensions of an object type, in order. -/
def extensionsOf (d : Document) (name : String) : List ObjectType :=
  d.definitions.filterMap fun definition =>
    definition.objectExtension?.filter fun e => e.name.text = name

/-- The names in extensions of object types that the document does not define, in order. -/
def baselessExtensions (d : Document) : List String :=
  d.definitions.filterMap fun definition =>
    (definition.objectExtension?.map fun e => e.name.text).filter
      fun name => !(definedObjects d).contains name

/-- The object type with all its extensions in the document. -/
def extended (d : Document) (t : ObjectType) : ObjectType :=
  (extensionsOf d t.name.text).foldl ObjectType.merge t

namespace Types

/-- Put a type among the roots or the other types. -/
def addType (d : Document) (types : Types) (t : TypeDef) : Types :=
  match t with
  | .object o =>
    match (rootNames d).find? o.name.text with
    | some k => { types with roots := types.roots.insert k (extended d o) }
    | none => { types with defined := types.defined.insert o.name.text (.object (extended d o)) }
  | _ => { types with defined := types.defined.insert t.name t }

/-- The types of a document; nothing is generated yet. An extension without a type to extend is
reported. -/
def ofDocument (d : Document) : Run Fault Types := do
  Run.emitAll ((baselessExtensions d).map .extensionWithoutBase)
  return (d.definitions.filterMap Definition.type?).foldl (addType d) .empty

end Types

end RelationApi.Schema
