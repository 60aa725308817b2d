import CodeAgent.Agent.Turn

/-! What the model and the tools do in the rounds of a turn, apart from what the turn makes of it. -/
namespace CodeAgent
open CodeAgent.Text
variable {σ α β : Type}

namespace Reply

/-- The pieces of text that arrive before a stream ends or breaks off. Empty pieces do not count. -/
def delivered : Reply → List String
  | [] => []
  | .error _ :: _ => []
  | .ok piece :: rest => if piece == "" then delivered rest else piece :: delivered rest

/-- The failure that breaks a stream off. -/
def failure? : Reply → Option Failure
  | [] => none
  | .error e :: _ => some e
  | .ok _ :: rest => failure? rest

theorem failure?_eq_none {reply : Reply} (h : ∀ piece ∈ reply, ∃ s, piece = .ok s) :
    failure? reply = none := by
  induction reply with
  | nil => rfl
  | cons piece rest ih =>
    obtain ⟨s, rfl⟩ := h piece (by simp)
    exact ih fun p hp => h p (by simp [hp])

end Reply

/-- A call that was run: its identifier, and what its tool came to. -/
structure CallRun where
  id : String
  call : ToolCall
  outcome : Except Failure String

namespace CallRun

/-- What the model reads of a call, or the failure that ends the turn. -/
def report (settings : Settings) (x : CallRun) : Except Failure String :=
  match x.outcome with
  | .ok result =>
    match ToolReport.formatted x.call.name settings.maxListedSymbols
        (ToolReport.truncated settings.maxResultChars result) with
    | .ok text => .ok (ToolReport.succeeded x.call.name text)
    | .error b => .error (.breakdown b)
  | .error (.fault f) =>
    if f.kind.isTool then .ok (ToolReport.failed x.call.name f.text) else .error (.fault f)
  | .error e => .error e

/-- The failure by which a call ends the turn. -/
def failure? (settings : Settings) (x : CallRun) : Option Failure :=
  match x.report settings with
  | .ok _ => none
  | .error e => some e

/-- The events in the life of a call. -/
def events (x : CallRun) : List Event :=
  .toolStart x.id x.call.name x.call.parameters ::
    match x.outcome with
    | .ok result => [.toolResult x.id x.call.name result]
    | .error (.fault f) => if f.kind.isTool then [.toolError x.id x.call.name f.text] else []
    | .error _ => []

end CallRun

/-- A round of a turn: what the model was asked, the stream of its reply, and the calls that were run. -/
structure Round where
  asked : Query
  reply : Reply
  ran : List CallRun

namespace Round

/-- The text of the reply. -/
def text (x : Round) : String := String.join (Reply.delivered x.reply)

/-- The calls that the reply asks for. -/
def calls (x : Round) : List ToolCall := ToolCall.ofText x.text

/-- The failure by which a round ends the turn: of the stream, or of the first call that has one. -/
def failure? (settings : Settings) (x : Round) : Option Failure :=
  (Reply.failure? x.reply).or (x.ran.findSome? (CallRun.failure? settings))

/-- The events of a round. -/
def events (x : Round) : List Event :=
  (Reply.delivered x.reply).map .chunk ++ x.ran.flatMap CallRun.events

/-- The reply calls no tool and holds the completion marker. -/
def completes (settings : Settings) (x : Round) : Bool :=
  x.calls.isEmpty && containsText x.text settings.completionMarker

/-- What the reply is answered: the outputs of its calls, or a nudge if it has none. -/
def answer (settings : Settings) (x : Round) : Message :=
  ⟨.user, if x.calls.isEmpty then ToolReport.nudge settings.completionMarker
    else ToolReport.combined (x.ran.filterMap fun y => (y.report settings).toOption)⟩

/-- The reply and its answer. -/
def exchange (settings : Settings) (x : Round) : List Message :=
  [⟨.assistant, x.text⟩, x.answer settings]

/-- What a last round adds: a reply that calls no tool has no answer. -/
def closing (settings : Settings) (x : Round) : List Message :=
  ⟨.assistant, x.text⟩ :: if x.calls.isEmpty then [] else [x.answer settings]

/-- What rounds add to a conversation; the last one closes it. -/
def transcript (settings : Settings) : List Round → List Message
  | [] => []
  | [x] => x.closing settings
  | x :: y :: xs => x.exchange settings ++ transcript settings (y :: xs)

end Round

namespace TurnHost

/-- Run a call in a world. -/
def runCall (host : TurnHost σ) (call : ToolCall) (world : σ) : CallRun × σ :=
  let (id, world) := host.newIdentifier.run world
  let (outcome, world) := (host.execute call).run.run world
  (⟨id, call, outcome⟩, world)

/-- Run calls in order, up to the first that ends the turn. -/
def runCalls (host : TurnHost σ) (settings : Settings) : List ToolCall → σ → List CallRun × σ
  | [], world => ([], world)
  | call :: calls, world =>
    let (x, world) := host.runCall call world
    match x.failure? settings with
    | some _ => ([x], world)
    | none =>
      let (xs, world) := runCalls host settings calls world
      (x :: xs, world)

/-- Ask the model in a world, and run the calls of its reply unless the stream breaks off. -/
def round (host : TurnHost σ) (settings : Settings) (q : Query) (world : σ) : Round × σ :=
  let answered := (host.reply q).run world
  match Reply.failure? answered.1 with
  | some _ => (⟨q, answered.1, []⟩, answered.2)
  | none =>
    let made := host.runCalls settings (ToolCall.ofText (String.join (Reply.delivered answered.1)))
      answered.2
    (⟨q, answered.1, made.1⟩, made.2)

theorem round_asked (host : TurnHost σ) (settings : Settings) (q : Query) (world : σ) :
    (host.round settings q world).1.asked = q := by
  unfold round
  dsimp only
  split <;> rfl

/-- The rounds are what the host does, one after the other, between two worlds. -/
def Plays (host : TurnHost σ) (settings : Settings) : σ → List Round → σ → Prop
  | world, [], after => after = world
  | world, x :: xs, after =>
    ∃ next, host.round settings x.asked world = (x, next) ∧ Plays host settings next xs after

end TurnHost

namespace TurnAction

/-- What an action comes to in a run, and the run after it. -/
def exec (a : TurnAction σ α) (t : TurnRun σ) : Except Failure α × TurnRun σ := a.run.run t

@[simp] theorem exec_pure (x : α) (t : TurnRun σ) : exec (pure x) t = (.ok x, t) := rfl

@[simp] theorem exec_throw (e : Failure) (t : TurnRun σ) :
    exec (throw e : TurnAction σ α) t = (.error e, t) := rfl

@[simp] theorem exec_enter (stage : TurnStage) (t : TurnRun σ) :
    exec (enter stage) t = (.ok (), { t with stage }) := rfl

@[simp] theorem exec_onWorld (a : StateM σ α) (t : TurnRun σ) :
    exec (onWorld a) t = (.ok (a.run t.world).1, { t with world := (a.run t.world).2 }) := rfl

theorem exec_bind (a : TurnAction σ α) (f : α → TurnAction σ β) (t : TurnRun σ) :
    exec (a >>= f) t = match exec a t with
      | (.ok x, t') => exec (f x) t'
      | (.error e, t') => (.error e, t') := by
  change (ExceptT.bindCont f (exec a t).1).run (exec a t).2 = _
  cases exec a t with
  | mk outcome t' => cases outcome <;> rfl

theorem exec_bind_ok {a : TurnAction σ α} {t t' : TurnRun σ} {x : α} (h : exec a t = (.ok x, t'))
    (f : α → TurnAction σ β) : exec (a >>= f) t = exec (f x) t' := by
  rw [exec_bind, h]

end TurnAction
end CodeAgent
