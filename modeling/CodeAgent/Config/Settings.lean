import CodeAgent.Agent.Prompt
import CodeAgent.Backend.Kind
import CodeAgent.LogLevel
import CodeAgent.Record
import CodeAgent.Workspace.FileTree

/-! The settings of the agent, and where it keeps its state. -/
namespace CodeAgent

/-- The settings. -/
structure Settings where
  defaultModel : String := "qwen2.5-coder:7b"
  temperature : Float := 0.7
  maxTokens : Int := 4096
  openaiKey : Option String := none
  geminiKey : Option String := none
  openaiAddress : String := BackendKind.openai.defaultAddress
  geminiAddress : String := BackendKind.gemini.defaultAddress
  ollamaAddress : String := BackendKind.ollama.defaultAddress
  maxIterations : Int := 10
  completionMarker : String := Prompt.completionMarker
  maxResultChars : Int := 100000
  maxListedSymbols : Int := 15
  searchLimit : Int := 50
  shortQueryLength : Int := 3
  indexWorkers : Int := 0
  maxSearchResults : Int := 500
  stateFolder : String := ".cognitive"
  logLevel : LogLevel := .info

namespace Settings

/-- An integer that is not below a bound. -/
def atLeast (least : Int) (v : Json) : Checked Int :=
  match Coercion.integer v with
  | .ok n => if n < least then .refused .tooSmall else .ok n
  | .error r => .refused r

/-- A number. -/
def number (v : Json) : Checked Float := .ofExcept (Coercion.number v)

/-- A text that is not empty. -/
def filledText (v : Json) : Checked String :=
  match Coercion.text v with
  | .ok "" => .refused .tooShort
  | .ok s => .ok s
  | .error r => .refused r

/-- A level of the log, in any letter case. -/
def level (v : Json) : Checked LogLevel :=
  match Coercion.text v with
  | .ok s => match LogLevel.ofText? (Text.upper s) with
    | some l => .ok l
    | none => .refused .custom
  | .error r => .refused r

/-- The settings in a map from the names of fields to values; a missing field has its default. -/
def read (fields : Json.Fields) : Checked Settings :=
  let d : Settings := {}
  mk <$> .fieldOr d.defaultModel fields "default_model" .text <*>
    .fieldOr d.temperature fields "default_temperature" number <*>
    .fieldOr d.maxTokens fields "default_max_tokens" .integer <*>
    .fieldOr d.openaiKey fields "openai_api_key" .optionalText <*>
    .fieldOr d.geminiKey fields "gemini_api_key" .optionalText <*>
    .fieldOr d.openaiAddress fields "openai_base_url" .text <*>
    .fieldOr d.geminiAddress fields "gemini_base_url" .text <*>
    .fieldOr d.ollamaAddress fields "ollama_base_url" .text <*>
    .fieldOr d.maxIterations fields "max_iterations" (atLeast 1) <*>
    .fieldOr d.completionMarker fields "completion_marker" filledText <*>
    .fieldOr d.maxResultChars fields "max_tool_result_chars" (atLeast 1) <*>
    .fieldOr d.maxListedSymbols fields "max_listed_symbols" (atLeast 1) <*>
    .fieldOr d.searchLimit fields "search_result_limit" (atLeast 1) <*>
    .fieldOr d.shortQueryLength fields "short_query_length" (atLeast 1) <*>
    .fieldOr d.indexWorkers fields "index_workers" (atLeast 0) <*>
    .fieldOr d.maxSearchResults fields "max_search_results" (atLeast 1) <*>
    .fieldOr d.stateFolder fields "state_dir_name" .text <*>
    .fieldOr d.logLevel fields "log_level" level

/-- The settings under the names of their fields. -/
def toFields (s : Settings) : Json.Fields :=
  [("default_model", .str s.defaultModel), ("default_temperature", .float s.temperature),
    ("default_max_tokens", .int s.maxTokens), ("openai_api_key", Json.ofOption s.openaiKey),
    ("gemini_api_key", Json.ofOption s.geminiKey), ("openai_base_url", .str s.openaiAddress),
    ("gemini_base_url", .str s.geminiAddress), ("ollama_base_url", .str s.ollamaAddress),
    ("max_iterations", .int s.maxIterations), ("completion_marker", .str s.completionMarker),
    ("max_tool_result_chars", .int s.maxResultChars),
    ("max_listed_symbols", .int s.maxListedSymbols), ("search_result_limit", .int s.searchLimit),
    ("short_query_length", .int s.shortQueryLength), ("index_workers", .int s.indexWorkers),
    ("max_search_results", .int s.maxSearchResults), ("state_dir_name", .str s.stateFolder),
    ("log_level", .str s.logLevel.text)]

/-- How many symbols a search answers with at most; zero asks for the usual number. -/
def resultLimit (s : Settings) : Option Int → Int
  | none | some 0 => s.searchLimit
  | some n => n

/-- The names of the fields. -/
def fieldNames : List String := OrderedMap.keys (toFields {})

end Settings

/-! Where state is kept: in a hidden folder of the workspace, and in one of the home folder. -/

/-- The paths of the state of a workspace. -/
structure StatePaths where
  root : Path
  folderName : String

namespace StatePaths

/-- The hidden folder. -/
def folder (p : StatePaths) : Path := p.root.join (Path.ofText p.folderName)

/-- The file of the stored index. -/
def snapshot (p : StatePaths) : Path := p.folder.child "symbols-v1.bin"

/-- The file that the stored index is written to before it takes its place. -/
def snapshotDraft (p : StatePaths) : Path := p.folder.child "symbols-v1.bin.tmp"

/-- The file of todo items. -/
def todos (p : StatePaths) : Path := p.folder.child "todos.json"

/-- The file of settings for all workspaces, in the home folder. -/
def globalSettings (home : Place) : Path :=
  (Place.path home).join (Path.mk 0 [".cognitive", "settings.yaml"])

end StatePaths

/-- The paths of the state of a workspace under these settings. -/
def Settings.statePaths (s : Settings) (root : Path) : StatePaths := ⟨root, s.stateFolder⟩

/-- The root of the workspace that a text names: nothing stands for the current folder. -/
def FileSystem.workspaceRoot (fs : FileSystem) (workspace : String) : Path :=
  if workspace == "" then Place.path fs.current else Path.ofText workspace

end CodeAgent
