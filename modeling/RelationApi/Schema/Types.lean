import RelationApi.Registry
import RelationApi.Sdl.Document

/-!
# The types of a schema

A schema has three sorts of types : those at the roots of its operations, the others that its
definitions define, and those that were generated. The generated ones are kept as definitions, since
a run may start with definitions of any kind under their names.
-/

namespace RelationApi.Schema

open Sdl

/-- The types of a schema, by name, and the roots by operation. -/
structure Types where
  defined : Registry String TypeDef
  generated : Registry String Definition
  roots : Registry OperationKind ObjectType

/-- The types of a schema without definitions. -/
def Types.empty : Types := ⟨.empty, .empty, .empty⟩

end RelationApi.Schema
