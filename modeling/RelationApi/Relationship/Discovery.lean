import RelationApi.Annotation.Basic
import RelationApi.Registry
import RelationApi.Relationship.Basic
import RelationApi.Sdl.TypeDef
import RelationApi.Text.Uppercase

/-!
# Finding relationships

A relationship type is an object type with `@relation`; it has a name and fields for both ends, and
its other fields are the properties. Every other object type is a node type. A field of a node type
leads along a relationship if its type is a relationship type, or if its type is a node type and the
field itself has `@relation`. Computed fields lead nowhere.
-/

namespace RelationApi

open Sdl

/-- What binds a type or a field to a relationship, if it has `@relation`. -/
def binding? (ds : List Directive) : Option Binding :=
  (AnnotationKind.relation.first? ds).map Binding.ofDirective

/-- A relationship type, with what binds it and the types at its ends. -/
structure RelationshipType where
  type : ObjectType
  name : Scalar
  fromType : String
  toType : String

namespace RelationshipType

/-- The named type of an endpoint field, which has to be there. -/
def endpoint (t : ObjectType) (name : String) : Except DefinitionFault String :=
  match t.field? name with
  | some f => .ok f.type.typeName
  | none => .error (.endpointMissing t.name.text name)

/-- The relationship type that an object type is, if it has `@relation`; it is malformed without a
name or an endpoint. -/
def of? (t : ObjectType) : Except DefinitionFault (Option RelationshipType) :=
  match binding? t.directives with
  | none => .ok none
  | some b => do
    if !b.link.name.isGiven then throw (.relationshipTypeUnnamed t.name.text)
    return some ⟨t, b.link.name, ← endpoint t fromField, ← endpoint t toField⟩

/-- The relationship types among some types, in order. -/
def collect : List TypeDef → Except DefinitionFault (List RelationshipType)
  | [] => .ok []
  | .object t :: ts => do
    let found ← of? t
    return found.toList ++ (← collect ts)
  | _ :: ts => collect ts

/-- The fields that are no endpoints. -/
def properties (r : RelationshipType) : List Field :=
  r.type.fields.filter fun f => !endpointNames.contains f.name.text

end RelationshipType

namespace Relationship

/-- The relationship of a field whose type is a relationship type. -/
def throughType (typeName : String) (f : Field) (r : RelationshipType) : Relationship :=
  { typeName := typeName
    fieldName := f.name.text
    outputType := r.type.name.text
    fromType := r.fromType
    toType := r.toType
    name := r.name
    inputs := r.properties.map Field.toInputValue
    outputs := r.properties }

/-- Whether a direction leads towards the type that has the field. -/
def isInward : Scalar → Except LiteralFault Bool
  | .text d => .ok (Text.upper (if d.isEmpty then "OUT" else d) = "IN")
  | .flag true => .error .directionFlag
  | .flag false | .missing => .ok false

/-- The relationship of a field with `@relation`. -/
def throughField (typeName : String) (f : Field) (b : Binding) :
    Except Fault Relationship := do
  if !b.link.name.isGiven then
    throw (.definition (.relationshipFieldUnnamed typeName f.name.text))
  let related := f.type.typeName
  let inward ← (isInward b.direction).mapError .literal
  return {
    typeName := typeName
    fieldName := f.name.text
    outputType := related
    fromType := if inward then related else typeName
    toType := if inward then typeName else related
    name := b.link.name }

/-- The relationship that a field of a node type leads along, if any. -/
def ofField? (types : Registry String TypeDef) (relTypes : List RelationshipType)
    (typeName : String) (f : Field) : Except Fault (Option Relationship) :=
  if isComputed f.directives then .ok none
  else
    match relTypes.find? fun r => r.type.name.text = f.type.typeName with
    | some r => .ok (some (throughType typeName f r))
    | none =>
      match (types.find? f.type.typeName).bind TypeDef.object?, binding? f.directives with
      | some _, some b => some <$> throughField typeName f b
      | _, _ => .ok none

/-- The relationships that the fields of a node type lead along, in order. -/
def ofFields (types : Registry String TypeDef) (relTypes : List RelationshipType)
    (typeName : String) : List Field → Except Fault (List Relationship)
  | [] => .ok []
  | f :: fs => do
    let found ← ofField? types relTypes typeName f
    return found.toList ++ (← ofFields types relTypes typeName fs)

/-- The relationships on node types among some of the types, in order. -/
def ofTypes (types : Registry String TypeDef) (relTypes : List RelationshipType) :
    List TypeDef → Except Fault (List Relationship)
  | [] => .ok []
  | .object t :: ts => do
    let found ←
      if relTypes.any fun r => r.type.name.text = t.name.text then .ok []
      else ofFields types relTypes t.name.text t.fields
    return found ++ (← ofTypes types relTypes ts)
  | _ :: ts => ofTypes types relTypes ts

/-- The relationships on all node types, in the order of types and fields. -/
def collect (types : Registry String TypeDef) : Except Fault (List Relationship) := do
  let relTypes ← (RelationshipType.collect types.values).mapError .definition
  ofTypes types relTypes types.values

end Relationship

end RelationApi
