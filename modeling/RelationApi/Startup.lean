import RelationApi.Log
import RelationApi.Settings.Basic

/-!
# Checking the configuration

When a program starts, the settings of the default schema are checked : the setting of an operation
has to be a flag, or a mapping that excludes a list of types. Settings without a meaning are
reported in the order of their keys, so these have to be comparable.
-/

namespace RelationApi.Startup

/-- Check the setting of an operation. -/
def checkOperation (root : String) (setting : Data) : Except SettingsFault Unit :=
  match setting with
  | .flag _ => .ok ()
  | .mapping es =>
    match Data.get? es "exclude" with
    | none | some (.list _) => .ok ()
    | some _ => .error (.excludeNotList root)
  | _ => .error (.rootNotSetting root)

/-- The keys of the settings without a meaning, in order. -/
def unknownKeys (s : Settings) : Except SettingsFault (List Key) :=
  match s.extra with
  | .mapping es =>
    match Key.sorted? (es.map Prod.fst) with
    | some keys => .ok keys
    | none => .error .keysNotComparable
  | _ => .ok []

/-- Check the configuration. -/
def check (configuration : Option Data) : Run SettingsFault Unit := do
  let s ← Run.ofExcept (Settings.forSchema configuration Settings.defaultSchema)
  Run.ofExcept (checkOperation "query" s.query)
  Run.ofExcept (checkOperation "mutation" s.mutation)
  let unknown ← Run.ofExcept (unknownKeys s)
  if !unknown.isEmpty then Run.emit (.unknownSettings unknown)
  Run.emit .initialized

end RelationApi.Startup
