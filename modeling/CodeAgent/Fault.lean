import CodeAgent.Json.Writer

/-! Faults: the failures that the agent foresees, with what a host is told about each. -/
namespace CodeAgent

/-- The coarse class of a fault. -/
inductive FaultCategory where
  | providerConnection
  | providerAuth
  | providerApi
  | providerInvalidResponse
  | toolNotFound
  | toolValidation
  | toolExecution
  | fileNotFound
  | fileAccess
  | workspaceMissing
  | index
  | parse
  | eventEmission
  | configInvalid
  | unknown
  deriving DecidableEq, Repr

namespace FaultCategory

/-- The name of a category in reports. -/
def text : FaultCategory → String
  | providerConnection => "provider_connection"
  | providerAuth => "provider_auth"
  | providerApi => "provider_api"
  | providerInvalidResponse => "provider_invalid_response"
  | toolNotFound => "tool_not_found"
  | toolValidation => "tool_validation"
  | toolExecution => "tool_execution"
  | fileNotFound => "file_not_found"
  | fileAccess => "file_io"
  | workspaceMissing => "workspace_missing"
  | index => "index"
  | parse => "parse"
  | eventEmission => "event_emission"
  | configInvalid => "config_invalid"
  | unknown => "unknown"

/-- Every category. -/
def all : List FaultCategory :=
  [providerConnection, providerAuth, providerApi, providerInvalidResponse, toolNotFound,
    toolValidation, toolExecution, fileNotFound, fileAccess, workspaceMissing, index, parse,
    eventEmission, configInvalid, unknown]

/-- The category of a given name. -/
def ofText? (s : String) : Option FaultCategory :=
  all.find? (·.text == s)

end FaultCategory

/-- How loudly a fault is reported. -/
inductive Severity where
  | debug
  | info
  | warning
  | error
  | critical
  deriving DecidableEq, Repr

namespace Severity

/-- The name of a severity in reports. -/
def text : Severity → String
  | debug => "debug"
  | info => "info"
  | warning => "warning"
  | error => "error"
  | critical => "critical"

/-- The severity of a given name. -/
def ofText? (s : String) : Option Severity :=
  [debug, info, warning, error, critical].find? (·.text == s)

end Severity

/-- What a fault is about. -/
inductive FaultKind where
  | general
  | provider
  | providerRequest
  | providerStatus
  | providerResponse
  | providerKey
  | tool
  | missingParameter
  | notFound
  | fileAccess
  | noWorkspace
  | unknownTool
  | symbolIndex
  | toolCallText
  | eventEmission
  | configuration
  deriving DecidableEq, Repr

namespace FaultKind

/-- The kind that a kind is a case of. -/
def parent? : FaultKind → Option FaultKind
  | general => none
  | providerRequest | providerStatus | providerResponse | providerKey => some provider
  | missingParameter | notFound | fileAccess | noWorkspace | unknownTool => some tool
  | provider | tool | symbolIndex | toolCallText | eventEmission | configuration => some general

/-- A kind and the kinds it is a case of, up to the most general one. -/
def lineage (k : FaultKind) : List FaultKind :=
  match k.parent? with
  | none => [k]
  | some p => match p.parent? with
    | none => [k, p]
    | some q => [k, p, q]

/-- A failure of a model backend. -/
def isProvider (k : FaultKind) : Bool := k.lineage.contains provider

/-- A failure of a tool. -/
def isTool (k : FaultKind) : Bool := k.lineage.contains tool

/-- The category of the faults of a kind, unless a report gives another. -/
def category : FaultKind → FaultCategory
  | general | provider => .unknown
  | providerRequest => .providerConnection
  | providerStatus => .providerApi
  | providerResponse => .providerInvalidResponse
  | providerKey => .providerAuth
  | tool => .toolExecution
  | missingParameter => .toolValidation
  | notFound => .fileNotFound
  | fileAccess => .fileAccess
  | noWorkspace => .workspaceMissing
  | unknownTool => .toolNotFound
  | symbolIndex => .index
  | toolCallText => .parse
  | eventEmission => .eventEmission
  | configuration => .configInvalid

/-- The severity of the faults of a kind, unless a report gives another. -/
def severity : FaultKind → Severity
  | symbolIndex => .warning
  | toolCallText => .debug
  | eventEmission => .critical
  | _ => .error

/-- The advice that goes with a kind. -/
def hint? : FaultKind → Option String
  | providerRequest => some "Check that the endpoint URL is reachable and the model server is up."
  | providerResponse =>
    some "The endpoint may not speak the expected API; check the base URL and model name."
  | providerKey => some "Configure the API key for this provider before sending a message."
  | noWorkspace => some "Open a workspace folder first."
  | _ => none

/-- The fields of a report of a kind in their order, those that must be given marked. -/
def ownFields : FaultKind → List (String × Bool)
  | general => [("message", true), ("category", false), ("severity", false), ("details", false),
      ("recovery_hint", false), ("correlation_id", false), ("cause", false)]
  | provider => [("message", true), ("provider", false), ("model", false), ("status_code", false)]
  | providerRequest | providerResponse | providerKey => [("message", true), ("provider", false)]
  | providerStatus => [("status_code", true), ("body", true), ("provider", false)]
  | tool | notFound => [("message", true), ("tool_name", false)]
  | missingParameter => [("parameter", true), ("tool_name", false)]
  | fileAccess => [("message", true), ("tool_name", false), ("path", false)]
  | noWorkspace => [("tool_name", false)]
  | unknownTool => [("tool_name", true)]
  | symbolIndex => [("message", true), ("path", false)]
  | toolCallText => [("message", true), ("fragment", false)]
  | eventEmission => [("event_type", true)]
  | configuration => [("message", true), ("config_key", false)]

/-- The fields that a report of a kind shares with other kinds and that can be given by name. -/
def sharedFields : FaultKind → List String
  | general => []
  | provider | tool => ["category", "severity", "details", "recovery_hint", "correlation_id", "cause"]
  | providerRequest | providerResponse | providerKey =>
    ["model", "status_code", "severity", "details", "correlation_id", "cause"]
  | providerStatus => ["model", "severity", "details", "recovery_hint", "correlation_id", "cause"]
  | noWorkspace => ["severity", "details", "correlation_id", "cause"]
  | symbolIndex | toolCallText | eventEmission =>
    ["details", "recovery_hint", "correlation_id", "cause"]
  | missingParameter | notFound | fileAccess | unknownTool | configuration =>
    ["severity", "details", "recovery_hint", "correlation_id", "cause"]

end FaultKind

/-- A foreseen failure. The tool is the one that a tool failure is reported for, and the
correlation id ties the failure to its lines in a log. -/
structure Fault where
  kind : FaultKind
  message : String
  category : FaultCategory
  severity : Severity
  details : Json.Fields
  hint : Option String
  tool : Option String
  correlation : String := "00000000"

namespace Fault

/-- The fields of a report under their names. -/
abbrev Report := List (String × Json)

private def given (r : Report) (key : String) : Json :=
  (OrderedMap.get? r key).getD .null

private def messageOf (kind : FaultKind) (r : Report) : String :=
  match kind with
  | .providerStatus =>
    "API error (" ++ (given r "status_code").display ++ "): " ++ (given r "body").display
  | .missingParameter => "Missing " ++ (given r "parameter").display
  | .noWorkspace => "No workspace open"
  | .unknownTool => "Unknown tool: " ++ (given r "tool_name").display
  | .eventEmission => "Failed to emit event: " ++ (given r "event_type").display
  | _ => (given r "message").display

private def providerDetails (r : Report) : List (String × Json) :=
  let base := [("provider", given r "provider"), ("model", given r "model")]
  match given r "status_code" with
  | .null => base
  | code => base ++ [("status_code", code)]

private def detailsOf (kind : FaultKind) (r : Report) : List (String × Json) :=
  match kind with
  | .general => []
  | .provider | .providerRequest | .providerStatus | .providerResponse | .providerKey =>
    providerDetails r
  | .tool | .notFound | .noWorkspace | .unknownTool => [("tool_name", given r "tool_name")]
  | .missingParameter => [("tool_name", given r "tool_name"), ("parameter", given r "parameter")]
  | .fileAccess => [("tool_name", given r "tool_name"), ("path", given r "path")]
  | .symbolIndex => [("path", given r "path")]
  | .toolCallText => match given r "fragment" with
    | .str s => [("fragment", .str (String.ofList (s.toList.take 200)))]
    | _ => []
  | .eventEmission => [("event_type", given r "event_type")]
  | .configuration => [("config_key", given r "config_key")]

/-- The fault that a report describes. -/
def ofReport (kind : FaultKind) (r : Report) : Fault where
  kind := kind
  message := messageOf kind r
  category := ((given r "category").str?.bind FaultCategory.ofText?).getD kind.category
  severity := ((given r "severity").str?.bind Severity.ofText?).getD kind.severity
  details := (detailsOf kind r).foldl (fun fs p => OrderedMap.put p.1 p.2 fs)
    (((given r "details").obj?).getD [])
  hint := match given r "recovery_hint" with
    | .str s => some s
    | _ => kind.hint?
  tool := if kind.isTool then (given r "tool_name").str? else none
  correlation := match given r "correlation_id" with
    | .str "" | .null => "00000000"
    | v => v.display

/-- The report that values in order and by name make: nothing if there are too many values, a
name is unknown or given twice, or a field that is needed is missing. -/
def report? (kind : FaultKind) (ordered : List Json) (named : List (String × Json)) :
    Option Report :=
  let own := kind.ownFields
  let positional := (own.map (·.1)).zip ordered
  let known (key : String) : Bool := own.any (·.1 == key) || kind.sharedFields.contains key
  let all := positional ++ named
  let complete := own.all fun f => !f.2 || all.any (·.1 == f.1)
  let fresh := named.all fun f => known f.1 && !positional.any (·.1 == f.1)
  if ordered.length ≤ own.length && complete && fresh then some all else none

/-- What the model or a log reads: a tool failure is its message alone, any other comes with its
correlation id and its advice. -/
def text (f : Fault) : String :=
  if f.kind.isTool then f.message
  else
    let line := "[" ++ f.correlation ++ "] " ++ f.message
    match f.hint with
    | none | some "" => line
    | some h => line ++ "\nRecovery hint: " ++ h

/-- A fault as an object for hosts. -/
def toJson (f : Fault) : Json :=
  .obj [("error", .str f.message), ("category", .str f.category.text),
    ("severity", .str f.severity.text), ("correlation_id", .str f.correlation),
    ("recovery_hint", Json.ofOption f.hint), ("details", .obj f.details)]

/-- A tool failure that names no tool is reported for the given one. -/
def raisedBy (f : Fault) (tool : String) : Fault :=
  if f.kind.isTool && f.tool.isNone then { f with tool := some tool } else f

private def simple (kind : FaultKind) (r : Report) : Fault := ofReport kind r

/-- The backend could not be reached. -/
def requestFailed (provider message : String) : Fault :=
  simple .providerRequest [("message", .str message), ("provider", .str provider)]

/-- The backend answered with a status that is no success. -/
def badStatus (provider : String) (status : Int) (body : String) : Fault :=
  simple .providerStatus
    [("status_code", .int status), ("body", .str body), ("provider", .str provider)]

/-- The backend's answer cannot be read. -/
def badResponse (provider : Option String) (message : String) : Fault :=
  simple .providerResponse [("message", .str message), ("provider", Json.ofOption provider)]

/-- A hosted backend was called without a key. -/
def missingKey (provider : String) : Fault :=
  simple .providerKey
    [("message", .str ("Missing API key for " ++ provider)), ("provider", .str provider)]

/-- A tool failed for a reason of its own. -/
def toolFailed (tool : Option String) (message : String) : Fault :=
  simple .tool [("message", .str message), ("tool_name", Json.ofOption tool)]

/-- A parameter is absent or has the wrong type. -/
def missingParameter (tool parameter : String) : Fault :=
  simple .missingParameter [("parameter", .str parameter), ("tool_name", .str tool)]

/-- A file or a todo item does not exist. -/
def notFound (tool message : String) : Fault :=
  simple .notFound [("message", .str message), ("tool_name", .str tool)]

/-- An operation on a file failed. -/
def fileFailed (tool path message : String) : Fault :=
  simple .fileAccess [("message", .str message), ("tool_name", .str tool), ("path", .str path)]

/-- A tool needs an open workspace. -/
def noWorkspace (tool : String) : Fault :=
  simple .noWorkspace [("tool_name", .str tool)]

/-- A tool's name is not on the list of tools. -/
def unknownTool (name : String) : Fault :=
  simple .unknownTool [("tool_name", .str name)]

/-- An outline or a stored index cannot be had. -/
def indexFailed (message : String) (path : Option String) : Fault :=
  simple .symbolIndex [("message", .str message), ("path", Json.ofOption path)]

/-- A fragment of model output is no tool call. -/
def notACall (message : String) : Fault :=
  simple .toolCallText [("message", .str message)]

/-- The event sink refused an event. -/
def emissionFailed (event : String) : Fault :=
  simple .eventEmission [("event_type", .str event)]

/-- A settings file or value is invalid. -/
def badConfiguration (message : String) : Fault :=
  simple .configuration [("message", .str message)]

end Fault
end CodeAgent
