import CodeAgent.Agent.Toolbox
import CodeAgent.Agent.Turn
import CodeAgent.Backend.Basic
import CodeAgent.Http.Exchange

/-! The agent as a service: configured, opened on a workspace, and asked for turns, tools and models.
Each operation works with the configuration at its start. -/
namespace CodeAgent
open CodeAgent.Http

/-- What a service works on: the files, the index and the network. -/
structure ServiceWorld where
  bench : Workbench
  network : Network := {}

/-- An operation of a service; what it did before it failed stays done. -/
abbrev ServiceAction := ExceptT Failure (StateM ServiceWorld)

namespace ServiceWorld
variable {α : Type}

/-- Let something work on the files and the index. -/
def onBench (a : StateM Workbench α) : StateM ServiceWorld α := do
  let w ← get
  let (result, bench) := a.run w.bench
  set { w with bench }
  return result

/-- Let something use the network. -/
def onNetwork (a : StateM Network α) : StateM ServiceWorld α := do
  let w ← get
  let (result, network) := a.run w.network
  set { w with network }
  return result

end ServiceWorld

/-- The configuration of a service: its settings, the open workspace, the system that it runs on, and
how outlines are had. -/
structure Service where
  settings : Settings
  workspace : Option Place := none
  osName : String := "linux"
  outliner : Outliner

/-- New keys, and new addresses of backends. -/
structure BackendChange where
  openaiKey : Option String := none
  geminiKey : Option String := none
  openaiAddress : Option String := none
  ollamaAddress : Option String := none

namespace Service

/-- The address that is given, if any is, or the old one. -/
def replaced (old : String) : Option String → String
  | none | some "" => old
  | some new => new

/-- Reach backends in another way. Keys become what is given, nothing included; addresses stay unless
others are given. -/
def configure (s : Service) (c : BackendChange) : Service :=
  { s with settings := { s.settings with
    openaiKey := c.openaiKey
    geminiKey := c.geminiKey
    openaiAddress := replaced s.settings.openaiAddress c.openaiAddress
    ollamaAddress := replaced s.settings.ollamaAddress c.ollamaAddress } }

/-- The place that a user names: a tilde at the start is the home folder. -/
def placeOf (fs : FileSystem) (path : String) : Except Failure Place :=
  let p := Path.ofText path
  let p : Except Failure Path := match p.names with
    | name :: names =>
      if p.isAbsolute || !name.startsWith "~" then .ok p
      else if name == "~" then .ok (Place.path (fs.home ++ names))
      else .error (.breakdown .hostRefused)
    | [] => .ok p
  p.bind fun p => (fs.resolve p).mapError .file

/-- Open a workspace, or close it. Opening makes a pass over the workspace, and it is open even if the
pass fails. -/
def openWorkspace (s : Service) : Option String → ServiceAction Service
  | none => pure { s with workspace := none }
  | some path => do
    let place ← ExceptT.mk (pure (placeOf (← get).bench.files path))
    let pass := ToolAction.onIndex id (SymbolIndex.loadOrPass s.outliner s.settings place)
    let _ ← ExceptT.mk (do return .ok (← ServiceWorld.onBench pass.run))
    return { s with workspace := some place }

/-- The tools as the service runs them. -/
def toolbox (s : Service) : Toolbox where
  settings := s.settings
  workspace := s.workspace.map Place.path
  outliner := s.outliner

/-- Run a tool outside of a turn. -/
def executeTool (s : Service) (call : ToolCall) : ServiceAction String :=
  ExceptT.mk (ServiceWorld.onBench (s.toolbox.execute call).run)

/-- Make a pass over the open workspace. -/
def indexWorkspace (s : Service) : ServiceAction String := do
  match s.workspace with
  | none => throw (.fault (Fault.noWorkspace Tool.indexCodebase.name))
  | some place =>
    let pass := ToolAction.onIndex id (SymbolIndex.pass s.outliner s.settings place)
    let _ ← ExceptT.mk (ServiceWorld.onBench pass.run)
    return "Codebase indexed successfully"

/-- The system prompt for a request. -/
def prompt (s : Service) (query : Option String) : String :=
  PromptContext.prompt {
    osName := s.osName
    workspace := s.workspace.map Place.text
    query
    marker := s.settings.completionMarker }

/-- Send a request that may have failed to build. -/
def exchange (request : Except Failure Request) : ServiceAction Response := do
  let r ← ExceptT.mk (pure request)
  ExceptT.mk do return .ok (← ServiceWorld.onNetwork (Network.send r))

/-- The models of the local server. -/
def models (s : Service) : ServiceAction (List InstalledModel) := do
  let b := s.settings.backend .ollama
  ExceptT.mk (pure (b.readModels (← exchange b.listRequest)))

/-- What a model is asked at the settings of the service. -/
def query (s : Service) (model : String) (messages : List Message) : Query where
  model
  messages
  temperature := some (.float s.settings.temperature)
  maxTokens := some s.settings.maxTokens

/-- The reply to some messages, all at once and without tools. -/
def complete (s : Service) (messages : List Message) (model : Option String) :
    ServiceAction Json := do
  let model := TurnRequest.modelOf s.settings model
  let b := s.settings.backend (BackendKind.ofModel model)
  ExceptT.mk (pure (b.readReply (← exchange (b.request (s.query model messages) false))))

/-- The streamed reply to a query. -/
def reply (s : Service) (q : Query) : StateM ServiceWorld Reply := do
  let b := s.settings.backend (BackendKind.ofModel q.model)
  match ← (exchange (b.request q true)).run with
  | .error e => return [.error e]
  | .ok response =>
    let (pieces, ending) := b.readStream response
    let failure : Reply := match ending with
      | .ok () => []
      | .error e => [.error e]
    return pieces.map .ok ++ failure

/-- What a turn of the service runs against. -/
def turnHost (s : Service) : TurnHost ServiceWorld where
  reply := s.reply
  execute := s.executeTool
  newIdentifier := ServiceWorld.onBench Workbench.newIdentifier

/-- Run a turn: its outcome, and the events of it. -/
def turn (s : Service) (messages : List Message) (model : Option String) :
    StateM ServiceWorld (Except Failure TurnResult × List Event) := do
  let request : TurnRequest := {
    settings := s.settings
    model := TurnRequest.modelOf s.settings model
    osName := s.osName
    workspace := s.workspace.map Place.path }
  let (outcome, run) := request.run s.turnHost messages (← get)
  set run.world
  return (outcome, run.events)

end Service
end CodeAgent
