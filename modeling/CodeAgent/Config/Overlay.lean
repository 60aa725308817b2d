import CodeAgent.Config.Settings
import CodeAgent.Failure
import CodeAgent.Yaml.Value

/-! Settings from everywhere: given values come first, then the environment, then a file. -/
namespace CodeAgent

/-- The environment of a program: variables in the order in which they were set. -/
abbrev Environment := OrderedMap String

/-- Settings that were loaded, and the given values that belong to no field. -/
structure LoadedSettings where
  settings : Settings
  extra : Json.Fields := []

namespace Settings

/-- The start of the names of variables. -/
def variableStart : String := "COGNITIVE_"

/-- The variable of a field. -/
def variableName (field : String) : String := variableStart ++ Text.upper field

/-- The value of a field in the environment; letter case does not count, and of several variables
the last does. -/
def ofEnvironment? (env : Environment) (field : String) : Option String :=
  (env.reverse.find? fun v => Text.lower v.1 == Text.lower (variableName field)).map (·.2)

/-- The failure of a settings file. A flaw that only one value has is no fault of the file. -/
def fileFailure (path : Path) : Yaml.Flaw → Failure
  | .malformed => .fault (Fault.badConfiguration
      ("Invalid settings file " ++ path.text ++ ": " ++ Yaml.Flaw.malformed.text))
  | .badNumeral | .badCharacter => .breakdown .badValue
  | .largeCharacter => .breakdown .tooLarge
  | .emptyNumeral => .breakdown .outOfRange
  | .badTruth => .breakdown .missingKey
  | .badMoment => .breakdown .missingMember
  | .tooNested => .breakdown .tooNested

/-- The entries of a settings file; one that does not exist has none, nor has one without a map. -/
def fileEntries (fs : FileSystem) (path : Path) :
    Except Failure (List (Yaml.Value × Yaml.Value)) := do
  if !(← (fs.isThere path).mapError .file) then return []
  let text ← (fs.readValidText path).mapError .file
  return (← (Yaml.Value.ofText text).mapError (fileFailure path)).entries

/-- The values of a file that are given for fields that have no variable, or for no field. -/
def fileValues (env : Environment) (entries : List (Yaml.Value × Yaml.Value)) :
    Except Failure Json.Fields :=
  let isHidden (k : String) : Bool := fieldNames.contains k && OrderedMap.has env (variableName k)
  let value : Yaml.Value × Yaml.Value → Except Failure (Option (String × Json))
    | (.text k, v) => .ok (if isHidden k then none else some (k, v.toJson))
    | _ => .error (.breakdown .wrongType)
  (entries.mapM value).map (·.filterMap id)

/-- A given value is for a field: the names agree up to letter case. -/
def isFor (field name : String) : Bool := Text.lower name == field

/-- The value given for a field; the exact name comes first. -/
def given? (values : Json.Fields) (field : String) : Option Json :=
  match OrderedMap.get? values field with
  | some v => some v
  | none => (values.find? fun v => isFor field v.1).map (·.2)

/-- The settings that given values and the environment describe. -/
def gather (env : Environment) (values : Json.Fields) : Except Failure LoadedSettings := do
  let fields := fieldNames.filterMap fun field =>
    match given? values field, ofEnvironment? env field with
    | some v, _ => some (field, v)
    | none, some s => some (field, .str s)
    | none, none => none
  let settings ← (read fields).result.mapError .invalid
  return { settings, extra := values.filter fun v => !fieldNames.any (isFor · v.1) }

/-- The settings file: the one in the home folder if none is named. -/
def filePath (fs : FileSystem) : Option String → Path
  | some s => if s == "" then StatePaths.globalSettings fs.home else Path.ofText s
  | none => StatePaths.globalSettings fs.home

/-- Load settings: from a file, from the environment, and from given values, which count most. -/
def load (fs : FileSystem) (env : Environment) (file : Option String) (given : Json.Fields) :
    Except Failure LoadedSettings := do
  let values ← fileValues env (← fileEntries fs (filePath fs file))
  gather env (given.foldl (fun m (k, v) => OrderedMap.put k v m) values)

end Settings
end CodeAgent
