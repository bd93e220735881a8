import RelationApi.Annotation.Kind
import RelationApi.Settings.Data

/-!
# Settings

The settings say which operations are augmented (`query`, `mutation`), which directives guard what
is added (`auth`), and keep whatever else they were given (`extra`). They come from a configuration,
which may have a section for each schema (`Settings.forSchema`), or directly from data
(`Settings.ofData`).

A setting of an operation is a flag, or a mapping that excludes types; any other turns it off.
-/

namespace RelationApi

/-- What is augmented, and with which directives. -/
structure Settings where
  query : Data := .flag true
  mutation : Data := .flag true
  auth : Data := .flag false
  extra : Data := .mapping []

namespace Settings

/-- The names of the settings with a meaning. -/
def known : List String := ["query", "mutation", "auth"]

/-- The settings of the library. -/
def defaults : List (Key × Data) :=
  [(.text "query", .flag true), (.text "mutation", .flag true), (.text "auth", .flag false)]

/-- The settings with the given entries over the library's own. -/
def ofEntries (es : List (Key × Data)) : Settings :=
  let merged := Data.distinct (defaults ++ es)
  { query := (Data.get? merged "query").getD (.flag true)
    mutation := (Data.get? merged "mutation").getD (.flag true)
    auth := (Data.get? merged "auth").getD (.flag false)
    extra := .mapping (merged.filter fun e => !e.1.isOneOf known) }

/-- The settings that data gives; data that says nothing gives the library's own. -/
def ofData (d : Data) : Except SettingsFault Settings :=
  if d.isGiven then ofEntries <$> d.entries else .ok (ofEntries [])

/-- The key of the settings in a section. -/
def sectionKey : String := "augmentation_settings"

/-- Data with something to say, as a mapping. -/
def mappingOf (d : Data) (fault : SettingsFault) : Except SettingsFault (List (Key × Data)) :=
  match d with
  | .mapping es => .ok es
  | _ => if d.isGiven then .error fault else .ok []

/-- The section of a configuration for a schema : the schema's own if there is one, else the
configuration itself. -/
def sectionFor (configuration : Data) (schema : String) :
    Except SettingsFault (List (Key × Data)) :=
  match configuration with
  | .flag true => .error .containerMissing
  | .number n => if n = 0 then .ok [] else .error .containerMissing
  | _ => do
    let es ← mappingOf configuration .sectionNotMapping
    match Data.get? es schema with
    | some own => mappingOf own .sectionNotMapping
    | none => return es

/-- The settings of a schema in a configuration, if there is one. -/
def forSchema (configuration : Option Data) (schema : String) : Except SettingsFault Settings := do
  let es ← sectionFor (configuration.getD .null) schema
  ofData ((Data.get? es sectionKey).getD .null)

/-- The name of the schema that settings are for when none is named. -/
def defaultSchema : String := "default"

/-- The settings that are given, or else those of the default schema. -/
def resolve (configuration given : Option Data) : Except SettingsFault Settings :=
  match given with
  | none | some .null => forSchema configuration defaultSchema
  | some d => ofData d

/-- The settings of the given keywords, every one of which has to be a setting. -/
def ofKeywords (es : List (Key × Data)) : Except SettingsFault Settings :=
  if es.all fun e => e.1.isOneOf (known ++ ["extra"]) then
    .ok {
      query := (Data.get? es "query").getD (.flag true)
      mutation := (Data.get? es "mutation").getD (.flag true)
      auth := (Data.get? es "auth").getD (.flag false)
      extra := (Data.get? es "extra").getD (.mapping []) }
  else .error .unknownKeyword

/-- The setting of an operation; one that has none is off. -/
def operation (s : Settings) (root : String) : Except SettingsFault Data :=
  if root = "query" then .ok s.query
  else if root = "mutation" then .ok s.mutation
  else
    match s.extra with
    | .mapping es => .ok ((Data.get? es root).getD (.flag false))
    | _ => .error .extraNotMapping

/-- Whether a setting of an operation lets a type through. -/
def admits (setting : Data) (type : String) : Except SettingsFault Bool :=
  match setting with
  | .flag b => .ok b
  | .mapping es =>
    match Data.get? es "exclude" with
    | some excluded => (!·) <$> excluded.hasName type
    | none => .ok true
  | _ => .ok false

/-- Whether the operation is augmented for the type. -/
def augmentsType (s : Settings) (root type : String) : Except SettingsFault Bool := do
  admits (← s.operation root) type

/-- Whether the operation is augmented for both endpoints of a relationship. -/
def augmentsRelationship (s : Settings) (root fromType toType : String) :
    Except SettingsFault Bool := do
  if ← s.augmentsType root fromType then s.augmentsType root toType else return false

/-- Whether what is added carries the directive. -/
def uses (s : Settings) (kind : AnnotationKind) : Bool :=
  match s.auth with
  | .flag b => b
  | .mapping es =>
    match Data.get? es kind.name with
    | some (.flag b) => b
    | _ => false
  | _ => false

end Settings

end RelationApi
