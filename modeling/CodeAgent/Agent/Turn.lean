import CodeAgent.Agent.Event
import CodeAgent.Agent.Prompt
import CodeAgent.Agent.ReplyStream
import CodeAgent.Agent.ToolReport
import CodeAgent.Backend.Basic
import CodeAgent.Config.Settings
import CodeAgent.ToolCall.Extractor

/-! A turn: the model is asked for a reply, the tools it calls are run, and their results go back to it,
until a reply calls no tool and holds the completion marker, or the model was asked often enough. -/
namespace CodeAgent
open CodeAgent.Text

/-- What a turn is doing. -/
inductive TurnStage where
  | composing
  | streaming
  | parsing
  | noAction
  | executing
  | done
  deriving DecidableEq, Repr

namespace TurnStage

/-- The name of a stage. -/
def text : TurnStage → String
  | composing => "composing"
  | streaming => "streaming"
  | parsing => "parsing"
  | noAction => "no_action"
  | executing => "executing"
  | done => "done"

end TurnStage

/-- Why a turn ended. -/
inductive StopReason where
  | completed
  | maxIterations
  deriving DecidableEq, Repr

namespace StopReason

/-- The name of a reason. -/
def text : StopReason → String
  | completed => "completed"
  | maxIterations => "max_iterations"

end StopReason

/-- The stream of a reply: pieces of text, and perhaps a failure that breaks it off. -/
abbrev Reply := List (Except Failure String)

/-- What a turn runs against: a model, tools that change a world, a source of identifiers, and a sink
that takes or refuses the event of each number. -/
structure TurnHost (σ : Type) where
  reply : Query → StateM σ Reply
  execute : ToolCall → ExceptT Failure (StateM σ) String
  newIdentifier : StateM σ String
  accepts : Nat → Bool := fun _ => true

/-- A turn under way: the world, the stage, the events that the sink took, and the requests. -/
structure TurnRun (σ : Type) where
  world : σ
  stage : TurnStage := .composing
  events : List Event := []
  requests : List Query := []

/-- A step of a turn; what it did before it failed stays done. -/
abbrev TurnAction (σ : Type) := ExceptT Failure (StateM (TurnRun σ))

/-- What a turn is asked: the settings, the model, the system the user works on and the open
workspace. -/
structure TurnRequest where
  settings : Settings
  model : String
  osName : String
  workspace : Option Path := none

/-- How a turn ended. -/
structure TurnResult where
  finalText : String
  iterations : Nat
  reason : StopReason
  conversation : Conversation

namespace TurnRequest

/-- The model for a turn: the usual one unless another is named. -/
def modelOf (settings : Settings) : Option String → String
  | none | some "" => settings.defaultModel
  | some m => m

/-- The system prompt for a turn that starts with some messages. -/
def prompt (r : TurnRequest) (messages : List Message) : String :=
  PromptContext.prompt {
    osName := r.osName
    workspace := r.workspace.map Path.text
    query := lastUserContent messages
    marker := r.settings.completionMarker }

/-- What the model is asked at some point of a conversation. -/
def query (r : TurnRequest) (c : Conversation) : Query where
  model := r.model
  messages := c.messages
  temperature := some (.float r.settings.temperature)
  maxTokens := some r.settings.maxTokens

end TurnRequest

namespace TurnAction
variable {σ α : Type}

/-- Go to a stage. -/
def enter (stage : TurnStage) : TurnAction σ Unit :=
  modify fun run => { run with stage }

/-- Let something act on the world. -/
def onWorld (a : StateM σ α) : TurnAction σ α :=
  ExceptT.mk do
    let run ← get
    let (result, world) := a.run run.world
    set { run with world }
    return .ok result

/-- Give an event to the sink. -/
def emit (host : TurnHost σ) (e : Event) : TurnAction σ Unit := do
  let run ← get
  if host.accepts run.events.length then set { run with events := run.events ++ [e] }
  else throw (.fault (Fault.emissionFailed e.type))

/-- Ask the model for a reply: its text, each piece of which is an event. -/
def ask (host : TurnHost σ) (q : Query) : TurnAction σ String := do
  modify fun run => { run with requests := run.requests ++ [q] }
  let reply ← onWorld (host.reply q)
  return String.join (← drain (fun piece => emit host (.chunk piece)) reply)

/-- What the model reads of the outcome of a call. A fault of the tool is an outcome, any other failure
ends the turn. -/
def settle (host : TurnHost σ) (settings : Settings) (id : String) (call : ToolCall) :
    Except Failure String → TurnAction σ String
  | .ok result => do
    emit host (.toolResult id call.name result)
    match ToolReport.formatted call.name settings.maxListedSymbols
        (ToolReport.truncated settings.maxResultChars result) with
    | .ok text => return ToolReport.succeeded call.name text
    | .error b => throw (.breakdown b)
  | .error (.fault f) => do
    if !f.kind.isTool then throw (.fault f)
    emit host (.toolError id call.name f.text)
    return ToolReport.failed call.name f.text
  | .error e => throw e

/-- Run one call of a reply. -/
def runCall (host : TurnHost σ) (settings : Settings) (call : ToolCall) : TurnAction σ String := do
  let id ← onWorld host.newIdentifier
  emit host (.toolStart id call.name call.parameters)
  settle host settings id call (← onWorld (host.execute call).run)

/-- Run the calls of a reply in order. -/
def runCalls (host : TurnHost σ) (settings : Settings) : List ToolCall → TurnAction σ (List String)
  | [] => pure []
  | call :: calls => do
    let output ← runCall host settings call
    return output :: (← runCalls host settings calls)

/-- The rounds of a turn, given how many are left. -/
def rounds (host : TurnHost σ) (request : TurnRequest) :
    (left : Nat) → (iterations : Nat) → (finalText : String) → Conversation →
    TurnAction σ TurnResult
  | 0, iterations, finalText, c => return ⟨finalText, iterations, .maxIterations, c⟩
  | left + 1, iterations, _, c => do
    let settings := request.settings
    enter .streaming
    let text ← ask host (request.query c)
    let c := c.addAssistant text
    enter .parsing
    match ToolCall.ofText text with
    | [] =>
      enter .noAction
      if containsText text settings.completionMarker then
        return ⟨text, iterations + 1, .completed, c⟩
      enter .composing
      let c := if left = 0 then c else c.addUser (ToolReport.nudge settings.completionMarker)
      rounds host request left (iterations + 1) text c
    | calls =>
      enter .executing
      let outputs ← runCalls host settings calls
      enter .composing
      rounds host request left (iterations + 1) text (c.addUser (ToolReport.combined outputs))

end TurnAction

namespace TurnRequest
variable {σ : Type}

/-- Run a turn that starts with some messages. -/
def turn (r : TurnRequest) (host : TurnHost σ) (messages : List Message) : TurnAction σ TurnResult := do
  let c := Conversation.start (r.prompt messages) messages
  let result ← TurnAction.rounds host r r.settings.maxIterations.toNat 0 "" c
  TurnAction.enter .done
  return result

/-- Run a turn in a world: its outcome, and what it did. -/
def run (r : TurnRequest) (host : TurnHost σ) (messages : List Message) (world : σ) :
    Except Failure TurnResult × TurnRun σ :=
  ((r.turn host messages).run.run { world })

end TurnRequest
end CodeAgent
