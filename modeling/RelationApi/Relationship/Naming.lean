import RelationApi.Fault
import RelationApi.Text.Uppercase

/-!
# Names of mutations

Each relationship gets two mutations, one that adds and one that removes a connection. Their names,
and the names of the types that go with them, come from the type and the field where the
relationship was found.
-/

namespace RelationApi

/-- What a mutation does to a relationship. -/
inductive Action where
  | create
  | delete
deriving DecidableEq

namespace Action

/-- All actions, in the order in which mutations are added. -/
def all : List Action := [create, delete]

/-- The word for the action. -/
def word : Action → String
  | create => "create"
  | delete => "delete"

/-- The action of the given word. -/
def ofWord? (s : String) : Option Action := all.find? fun a => a.word = s

/-- The first part of a mutation's name. -/
def label : Action → String
  | create => "Add"
  | delete => "Remove"

/-- The verb in the scopes of a mutation. -/
def verb : Action → String
  | create => "Create"
  | delete => "Delete"

/-- The name of the mutation for a field, which must not be empty. -/
def mutationName (a : Action) (type field : String) : Except DefinitionFault String :=
  if field.isEmpty then .error (.fieldNameEmpty type field)
  else .ok (a.label ++ type ++ Text.capitalized field)

end Action

/-- The name of the type that a mutation returns. -/
def payloadTypeName (mutation : String) : String := "_" ++ mutation ++ "Payload"

/-- The name of the type that selects or sets a type's fields. -/
def inputTypeName (type : String) : String := "_" ++ type ++ "Input"

end RelationApi
