import RelationApi.Sdl.Field

/-!
# Relationships

A relationship joins two node types, its ends. It is found where a field of a node type leads along
it (`Relationship`), and all mutations for it depend only on what is noted there.
-/

namespace RelationApi

open Sdl

/-- The name of the field at the end where a relationship starts. -/
def fromField : String := "from"

/-- The name of the field at the end that a relationship leads to. -/
def toField : String := "to"

/-- The names of the fields at the ends of a relationship. -/
def endpointNames : List String := [fromField, toField]

/-- One use of a relationship as a field of a node type. -/
structure Relationship where
  typeName : String
  fieldName : String
  outputType : String
  fromType : String
  toType : String
  name : Scalar
  inputs : List InputValue := []
  outputs : List Field := []
deriving DecidableEq

end RelationApi
