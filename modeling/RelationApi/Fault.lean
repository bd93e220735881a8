import RelationApi.Sdl.SyntaxError

/-!
# Faults

The reasons why a schema cannot be augmented. The definitions may be malformed, a literal may say
something that its directive has no use for, or the settings may have the wrong shape. A fault
aborts the whole run; whatever the settings merely rule out is no fault.
-/

namespace RelationApi

/-- What is malformed in the definitions of a schema, or in a relationship. -/
inductive DefinitionFault where
  | unreadable (error : Sdl.SyntaxError)
  | relationshipTypeUnnamed (type : String)
  | endpointMissing (type endpoint : String)
  | relationshipFieldUnnamed (type field : String)
  | fieldNameEmpty (type field : String)
deriving DecidableEq

namespace DefinitionFault

/-- The wording of the fault. -/
def message : DefinitionFault → String
  | unreadable e => "Could not parse type definitions: " ++ e.message
  | relationshipTypeUnnamed t => "@relation on relationship type " ++ t ++ " requires a name"
  | endpointMissing t e => "Relationship type " ++ t ++ " must define a '" ++ e ++ "' field"
  | relationshipFieldUnnamed t f => "@relation on " ++ t ++ "." ++ f ++ " requires a name"
  | fieldNameEmpty _ _ => "Relationship field name must not be empty"

/-- The type that the fault is about. -/
def type? : DefinitionFault → Option String
  | unreadable _ => none
  | relationshipTypeUnnamed t | endpointMissing t _ | relationshipFieldUnnamed t _
  | fieldNameEmpty t _ => some t

end DefinitionFault

/-- A literal that its directive has no use for. -/
inductive LiteralFault where
  | directionFlag
  | scopeNotText
deriving DecidableEq

namespace LiteralFault

/-- The wording of the fault. -/
def message : LiteralFault → String
  | directionFlag => "The direction of a relationship must be a word"
  | scopeNotText => "A scope must be a text"

end LiteralFault

/-- What has the wrong shape in the settings. -/
inductive SettingsFault where
  | sectionNotMapping
  | containerMissing
  | valuesNotIterable
  | valuesNotPairs
  | keyNotSimple
  | keysNotComparable
  | unknownKeyword
  | extraNotMapping
  | excludeNotContainer
  | rootNotSetting (root : String)
  | excludeNotList (root : String)
deriving DecidableEq

namespace SettingsFault

/-- The wording of the fault. -/
def message : SettingsFault → String
  | sectionNotMapping => "A settings section must be a mapping"
  | containerMissing => "The settings must be a mapping of sections"
  | valuesNotIterable => "The settings must be a mapping"
  | valuesNotPairs => "The settings must be pairs of names and values"
  | keyNotSimple => "The name of a setting must not be a list or a mapping"
  | keysNotComparable => "The names of unknown settings must be of one sort"
  | unknownKeyword => "There is no such setting"
  | extraNotMapping => "The unknown settings must be a mapping"
  | excludeNotContainer => "The excluded types must be a list"
  | rootNotSetting r => "GRAPH_AUGMENT " ++ r ++ " must be a bool or a mapping"
  | excludeNotList r => "GRAPH_AUGMENT " ++ r ++ ".exclude must be a list of type names"

end SettingsFault

/-- Why a run was aborted. -/
inductive Fault where
  | definition (fault : DefinitionFault)
  | literal (fault : LiteralFault)
  | settings (fault : SettingsFault)
deriving DecidableEq

namespace Fault

/-- The wording of the fault. -/
def message : Fault → String
  | definition f => f.message
  | literal f => f.message
  | settings f => f.message

end Fault

end RelationApi
