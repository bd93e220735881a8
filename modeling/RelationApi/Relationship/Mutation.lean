import RelationApi.Annotation.Basic
import RelationApi.Log
import RelationApi.Relationship.Basic
import RelationApi.Relationship.Naming
import RelationApi.Schema.Types
import RelationApi.Settings.Basic

/-!
# Mutations for a relationship

`Schema.Types.addRelationship` adds the mutations for one relationship : a field of the mutation
root for each action, the type of its payload, and the input type of the relationship's properties.
It adds nothing without a mutation root or where the settings rule the relationship out, and skips a
mutation whose field is there already. So adding a relationship twice is the same as adding it once.
-/

namespace RelationApi

open Sdl

/-- The name of the argument that sets the properties. -/
def dataArgument : String := "data"

/-- The fields that lead to both ends of a relationship. -/
def endpointFields (fromType toType : String) (w : Wrapping := {}) : List Field :=
  [{ name := { text := fromField }, type := .ofName fromType w },
    { name := { text := toField }, type := .ofName toType w }]

namespace Relationship

/-- A required argument whose type is the input type of `type`. -/
def requiredInput (argument type : String) : InputValue :=
  { name := { text := argument }
    type := .ofName (inputTypeName type) { nonNullName := true } }

/-- The arguments of a mutation : both ends and, to create, the properties if there are any. -/
def arguments (r : Relationship) (a : Action) : List InputValue :=
  [requiredInput fromField r.fromType, requiredInput toField r.toType] ++
    match a with
    | .create => if r.outputs.isEmpty then [] else [requiredInput dataArgument r.outputType]
    | .delete => []

/-- The name and the ends of the relationship. -/
def link (r : Relationship) : Link := ⟨r.name, .text r.fromType, .text r.toType⟩

/-- The scopes that a mutation needs. -/
def scopes (r : Relationship) (a : Action) : ScopeGuard :=
  ⟨[⟨r.fromType, a.verb⟩, ⟨r.toType, a.verb⟩]⟩

/-- The directives of a mutation. -/
def directives (r : Relationship) (s : Settings) (a : Action) : List Directive :=
  (MutationPurpose.mk r.link).toDirective ::
    if s.uses .hasScope then [(r.scopes a).toDirective] else []

/-- The field of the mutation root. -/
def mutationField (r : Relationship) (s : Settings) (a : Action) (name : String) : Field :=
  { name := { text := name }
    arguments := r.arguments a
    type := .ofName (payloadTypeName name)
    directives := r.directives s a }

/-- The input type of the properties that can be set, if there are properties at all. -/
def inputType? (r : Relationship) : Option InputType :=
  if r.inputs.isEmpty then none
  else
    some {
      name := { text := inputTypeName r.outputType }
      fields := (r.inputs.filter fun v => !isComputed v.directives).map fun v =>
        { name := { text := v.name.text }, type := v.type } }

/-- The properties as fields of a payload; computed ones lose their arguments. -/
def payloadProperties (r : Relationship) : List Field :=
  r.outputs.map fun f => if isComputed f.directives then f.withoutArguments else f

/-- The payload type of a mutation. -/
def payloadType (r : Relationship) (a : Action) (mutation : String) : ObjectType :=
  { name := { text := payloadTypeName mutation }
    directives := [(Binding.mk r.link .missing).toDirective]
    fields := endpointFields r.fromType r.toType ++
      match a with
      | .create => r.payloadProperties
      | .delete => [] }

/-- The types that go with a mutation. -/
def generatedTypes (r : Relationship) (a : Action) (mutation : String) : List TypeDef :=
  (match a with
    | .create => (r.inputType?.map TypeDef.input).toList
    | .delete => []) ++
  [.object (r.payloadType a mutation)]

end Relationship

/-- Put a type among the generated ones; a definition of the same name makes way, which is reported
if the two differ. -/
def addGenerated (generated : Registry String Definition) (t : TypeDef) :
    Run Fault (Registry String Definition) := do
  match generated.find? t.name with
  | some old => if old.type? ≠ some t then Run.emit (.replaced t.name)
  | none => pure ()
  return generated.insert t.name (.typeDef t)

/-- Put types among the generated ones, one after the other. -/
def addAllGenerated (generated : Registry String Definition) :
    List TypeDef → Run Fault (Registry String Definition)
  | [] => return generated
  | t :: ts => do addAllGenerated (← addGenerated generated t) ts

namespace Schema.Types

/-- Add the mutation of an action to the mutation root `root`, unless its field is there already. -/
def addMutation (types : Types) (root : ObjectType) (s : Settings) (r : Relationship)
    (a : Action) : Run Fault Types := do
  let name ← Run.ofExcept ((a.mutationName r.typeName r.fieldName).mapError .definition)
  if (root.field? name).isSome then
    Run.emit (.fieldExists name)
    return types
  else
    let generated ← addAllGenerated types.generated (r.generatedTypes a name)
    Run.emit (.generated name r.name.display)
    return { types with
      generated := generated
      roots := types.roots.insert .mutation (root.append (r.mutationField s a name)) }

/-- Add the mutations of the actions, in order. -/
def addMutations (types : Types) (s : Settings) (r : Relationship) :
    List Action → Run Fault Types
  | [] => return types
  | a :: rest => do
    match types.roots.find? .mutation with
    | some root => (← types.addMutation root s r a).addMutations s r rest
    | none => return types

/-- Add the mutations for a relationship. -/
def addRelationship (types : Types) (s : Settings) (r : Relationship) : Run Fault Types := do
  if !types.roots.contains .mutation then
    Run.emit (.noMutationRoot r.typeName r.fieldName)
    return types
  else if !(← Run.ofExcept ((s.augmentsRelationship OperationKind.mutation.keyword
      r.fromType r.toType).mapError .settings)) then
    Run.emit (.disabled r.fromType r.toType r.name.display)
    return types
  else types.addMutations s r Action.all

end Schema.Types

end RelationApi
