import CodeAgent.Agent.Conversation
import CodeAgent.Backend.Kind
import CodeAgent.Http.Exchange
import CodeAgent.Json.Encoding
import CodeAgent.Config.Settings

/-! Model backends: the requests they send, and what they read from the responses. -/
namespace CodeAgent
open CodeAgent.Text CodeAgent.Http

/-- A backend with its address, which has no slash at the end, and its key. -/
structure Backend where
  kind : BackendKind
  address : String
  key : Option String := none

/-- What is asked of a model. The temperature is a number, with or without a fraction. -/
structure Query where
  model : String
  messages : List Message
  temperature : Option Json := none
  maxTokens : Option Int := none

namespace Query

private def limits (q : Query) (temperature tokens : String) : Json.Fields :=
  (match q.temperature with
    | some t => [(temperature, t)]
    | none => []) ++
  match q.maxTokens with
    | some n => [(tokens, .int n)]
    | none => []

private def chatFields (q : Query) (stream : Bool) : Json.Fields :=
  [("model", .str q.model), ("messages", .arr (q.messages.map Message.toJson)),
    ("stream", .bool stream)]

private def textPart (s : String) : Json := .obj [("text", .str s)]

private def content (m : Message) : Json :=
  .obj [("role", .str (if m.role = .user then "user" else "model")),
    ("parts", .arr [textPart m.content])]

/-- The system messages as one instruction. -/
def instruction (q : Query) : Json.Fields :=
  match q.messages.filter (·.role == .system) with
  | [] => []
  | ms => [("systemInstruction", .obj [("parts",
      .arr [textPart (String.intercalate "\n\n" (ms.map (·.content)))])])]

private def nested (key : String) (fields : Json.Fields) : Json.Fields :=
  if fields.isEmpty then [] else [(key, .obj fields)]

/-- The body of a request to a kind of backend. -/
def body (q : Query) (kind : BackendKind) (stream : Bool) : Json :=
  match kind with
  | .openai => .obj (q.chatFields stream ++ q.limits "temperature" "max_tokens")
  | .ollama => .obj (q.chatFields stream ++ nested "options" (q.limits "temperature" "num_predict"))
  | .gemini => .obj (("contents", .arr ((q.messages.filter (·.role != .system)).map content)) ::
      q.instruction ++ nested "generationConfig" (q.limits "temperature" "maxOutputTokens"))

end Query

namespace Backend

/-- The key, which must not be empty. -/
def presentKey (b : Backend) : Except Failure String :=
  match b.key with
  | none | some "" => .error (.fault (Fault.missingKey b.kind.name))
  | some key => .ok key

/-- The request that asks for a reply, all at once or as a stream. -/
def request (b : Backend) (q : Query) (stream : Bool) : Except Failure Request := do
  let body := some (q.body b.kind stream)
  match b.kind with
  | .openai =>
    let key ← b.presentKey
    Request.build "POST" (b.address ++ "/chat/completions") none (some ("Bearer " ++ key)) body
  | .ollama => Request.build "POST" (b.address ++ "/api/chat") none none body
  | .gemini =>
    let key ← b.presentKey
    let method := if stream then ":streamGenerateContent" else ":generateContent"
    Request.build "POST" (b.address ++ "/models/" ++ q.model ++ method) (some ("key", key)) none body

/-- The fault of a connection that fails. -/
def connectionFault (b : Backend) (message : String) : Failure :=
  .fault (Fault.requestFailed b.kind.name (b.kind.name ++ " request failed: " ++ message))

/-- The pieces of text in a streamed response, and how it ends. -/
def readStream (b : Backend) : Response → List String × Except Failure Unit
  | .unreachable message => ([], .error (b.connectionFault message))
  | .answered status body =>
    if !isSuccess status then
      match wholeBody body with
      | .error message => ([], .error (b.connectionFault message))
      | .ok bs => ([], .error (.fault (Fault.badStatus b.kind.name status (ofUtf8 bs))))
    else readChunks b.kind.decoder body
where
  /-- The pieces of text in the chunks of a body. -/
  readChunks (d : Wire.Decoder) : List Arrival → List String × Except Failure Unit
    | [] => match d.finish.2 with
      | .ok texts => (texts, .ok ())
      | .error e => ([], .error e)
    | .failure message :: _ => ([], .error (b.connectionFault message))
    | .bytes chunk :: more =>
      let (d, out) := d.feed chunk
      match out with
      | .error e => ([], .error e)
      | .ok texts =>
        let (rest, ending) := readChunks d more
        (texts ++ rest, ending)

/-- The JSON value that is the body of a response. -/
def readBody (b : Backend) : Response → Except Failure Json
  | .unreachable message => .error (b.connectionFault message)
  | .answered status body =>
    match wholeBody body with
    | .error message => .error (b.connectionFault message)
    | .ok bs =>
      if !isSuccess status then .error (.fault (Fault.badStatus b.kind.name status (ofUtf8 bs)))
      else
        let malformed : Failure := .fault
          (Fault.badResponse (some b.kind.name) (b.kind.name ++ " returned invalid JSON: malformed"))
        match Json.textOfBytes? bs with
        | none => .error malformed
        | some cs => match Json.readChars? cs with
          | .ok v => .ok v
          | .error .tooDeep => .error (.breakdown .tooNested)
          | .error _ => .error malformed

private def orEmpty (v : Json) : Json := if v.isPresent then v else .str ""

/-- The reply in a response that comes all at once. It is whatever value stands in its place. -/
def readReply (b : Backend) (r : Response) : Except Failure Json := do
  let v ← b.readBody r
  let noContent (who : String) : Failure := .fault
    (Fault.badResponse (some b.kind.name) (who ++ " response has no message content"))
  match b.kind with
  | .openai =>
    match ((Wire.firstChoice v).bind (·.get? "message")).bind (·.get? "content") with
    | some content => return orEmpty content
    | none => throw (noContent "OpenAI")
  | .ollama =>
    match (v.get? "message").bind (·.get? "content") with
    | some content => return orEmpty content
    | none => throw (noContent "Ollama")
  | .gemini =>
    match Wire.valueTexts v with
    | .ok texts => return .str (String.join texts)
    | .error e => throw (.breakdown e)

end Backend

/-- A model that a local server has. -/
structure InstalledModel where
  name : String
  size : Int := 0
  modifiedAt : String := ""
  digest : String := ""
  deriving DecidableEq, Repr

namespace InstalledModel

/-- The model that an object describes. -/
def read : Json → Checked InstalledModel
  | .obj fields =>
    mk <$> .field fields "name" .text <*> .fieldOr 0 fields "size" .integer <*>
      .fieldOr "" fields "modified_at" .text <*> .fieldOr "" fields "digest" .text
  | _ => .refused .objectType

/-- A model as an object. -/
def toJson (m : InstalledModel) : Json :=
  .obj [("name", .str m.name), ("size", .int m.size), ("modified_at", .str m.modifiedAt),
    ("digest", .str m.digest)]

/-- The elements to read models from: a text counts as its characters, an object as its keys. -/
def listed : Json → Except Breakdown (List Json)
  | .arr items => .ok items
  | .str s => .ok (s.toList.map fun c => .str (String.singleton c))
  | .obj fields => .ok (fields.map fun f => .str f.1)
  | _ => .error .wrongType

/-- The models in a value. -/
def readList (v : Json) : Except Failure (List InstalledModel) :=
  let unexpected : Failure := .fault (Fault.badResponse (some BackendKind.ollama.name)
    "Unexpected /api/tags response: not a list of models")
  match v with
  | .obj fields => do
    match listed ((OrderedMap.get? fields "models").getD (.arr [])) with
    | .error b => throw (.breakdown b)
    | .ok items => match (Checked.elements read 0 items).result with
      | .ok models => return models
      | .error _ => throw unexpected
  | _ => .error unexpected

end InstalledModel

namespace Backend

/-- The request for the list of models of a local server. -/
def listRequest (b : Backend) : Except Failure Request :=
  Request.build "GET" (b.address ++ "/api/tags") none none none

/-- The list of models in a response. -/
def readModels (b : Backend) (r : Response) : Except Failure (List InstalledModel) := do
  InstalledModel.readList (← b.readBody r)

end Backend

/-! The backends that models are reached through: one of each kind, made when it is first needed. -/

/-- The backend of a kind under these settings. -/
def Settings.backend (s : Settings) : BackendKind → Backend
  | .openai => ⟨.openai, BackendKind.openai.address s.openaiAddress, s.openaiKey⟩
  | .gemini => ⟨.gemini, BackendKind.gemini.address s.geminiAddress, s.geminiKey⟩
  | .ollama => ⟨.ollama, BackendKind.ollama.address s.ollamaAddress, none⟩

/-- The kinds of the backends that were made, in order. -/
abbrev BackendPool := List BackendKind

namespace BackendPool

/-- The position of the backend for a model, and the pool that has it. -/
def reserve (pool : BackendPool) (model : String) : Nat × BackendPool :=
  let kind := BackendKind.ofModel model
  match pool.findIdx? (· == kind) with
  | some n => (n, pool)
  | none => (pool.length, pool ++ [kind])

end BackendPool
end CodeAgent
