import CodeAgent.Proofs.Agent.Identifiers
import CodeAgent.Proofs.Agent.TurnOutcome
import CodeAgent.Symbols.FileOutline

/-! The trace of a turn: what its events tell of the replies and of the calls that were run, in order,
and what of it the model reads. -/
namespace CodeAgent
variable {σ : Type}

/-- The identifier under which an event starts a call. -/
def Event.started? : Event → Option String
  | toolStart id _ _ => some id
  | _ => none

namespace Reply

theorem delivered_ok (pieces : List String) :
    delivered (pieces.map .ok) = pieces.filter (· != "") := by
  induction pieces with
  | nil => rfl
  | cons piece rest ih =>
    rw [List.map_cons, delivered, ih, List.filter_cons]
    by_cases empty : piece = "" <;> simp [empty]

theorem exists_pieces {reply : Reply} (unbroken : failure? reply = none) :
    ∃ pieces : List String, reply = pieces.map .ok := by
  induction reply with
  | nil => exact ⟨[], rfl⟩
  | cons piece rest ih =>
    cases piece with
    | error e => simp [failure?] at unbroken
    | ok s =>
      obtain ⟨pieces, rfl⟩ := ih unbroken
      exact ⟨s :: pieces, rfl⟩

/-- Empty pieces add nothing to the text of a reply. -/
theorem join_delivered (pieces : List String) :
    String.join (delivered (pieces.map .ok)) = String.join pieces := by
  rw [delivered_ok]
  induction pieces with
  | nil => rfl
  | cons piece rest ih =>
    rw [List.filter_cons]
    by_cases empty : piece = ""
    · simpa [empty, String.join_cons] using ih
    · simp [empty, String.join_cons, ih]

end Reply

namespace CallRun

/-- A call that was closed: its events, and what the model reads of it. -/
inductive Closed (settings : Settings) (x : CallRun) : List Event → String → Prop where
  | result {text shown : String} : x.outcome = .ok text →
      ToolReport.formatted x.call.name settings.maxListedSymbols
        (ToolReport.truncated settings.maxResultChars text) = .ok shown →
      Closed settings x
        [.toolStart x.id x.call.name x.call.parameters, .toolResult x.id x.call.name text]
        ("[" ++ x.call.name ++ "] result:\n" ++ shown)
  | error {f : Fault} : x.outcome = .error (.fault f) → f.kind.isTool = true →
      Closed settings x
        [.toolStart x.id x.call.name x.call.parameters, .toolError x.id x.call.name f.text]
        ("Tool '" ++ x.call.name ++ "' error: " ++ f.text)

theorem closed_of_report {settings : Settings} {x : CallRun} {output : String}
    (reported : x.report settings = .ok output) : x.Closed settings x.events output := by
  obtain ⟨id, call, outcome⟩ := x
  cases outcome with
  | ok text =>
    cases laid : ToolReport.formatted call.name settings.maxListedSymbols
        (ToolReport.truncated settings.maxResultChars text) with
    | error b => simp [report, laid] at reported
    | ok shown =>
      simp only [report, laid, Except.ok.injEq] at reported
      subst reported
      exact .result rfl laid
  | error e =>
    cases e with
    | fault f =>
      by_cases tool : f.kind.isTool = true
      · simp only [report, tool, if_true, Except.ok.injEq] at reported
        subst reported
        have life : events ⟨id, call, .error (.fault f)⟩ =
            [.toolStart id call.name call.parameters, .toolError id call.name f.text] := by
          simp [events, tool]
        rw [life]
        exact .error rfl tool
      · simp [report, tool] at reported
    | _ => simp [report] at reported

theorem Closed.report_eq {settings : Settings} {x : CallRun} {events : List Event} {output : String}
    (closed : x.Closed settings events output) : x.report settings = .ok output := by
  cases closed with
  | result answered laid => simp [report, answered, laid, ToolReport.succeeded]
  | error answered tool => simp [report, answered, tool, ToolReport.failed]

theorem started_events (x : CallRun) : x.events.filterMap Event.started? = [x.id] := by
  obtain ⟨id, call, outcome⟩ := x
  cases outcome with
  | ok text => rfl
  | error e =>
    cases e with
    | fault f => by_cases tool : f.kind.isTool = true <;> simp [events, tool, Event.started?]
    | _ => rfl

end CallRun

namespace Round

/-- A round that was played to its end. The pieces of its reply that are not empty were delivered and
make up its text; every call of the text was run and closed; and the answer to the text, if it calls
tools, carries what the model reads of each call. -/
structure Traced (settings : Settings) (x : Round) : Prop where
  streamed : ∃ pieces : List String, x.reply = pieces.map .ok ∧
    Reply.delivered x.reply = pieces.filter (· != "") ∧ x.text = String.join pieces
  ran_eq : x.ran.map CallRun.call = ToolCall.ofText x.text
  answered : ∃ outputs, List.Forall₂ (fun y output => y.Closed settings y.events output) x.ran outputs ∧
    (x.ran ≠ [] → x.answer settings = ⟨.user, ToolReport.combined outputs⟩)

theorem started_events (x : Round) :
    x.events.filterMap Event.started? = x.ran.map CallRun.id := by
  have chunks : ((Reply.delivered x.reply).map Event.chunk).filterMap Event.started? = [] := by
    simp [List.filterMap_map, Function.comp_def, Event.started?]
  rw [events, List.filterMap_append, chunks, List.nil_append]
  induction x.ran with
  | nil => rfl
  | cons y ys ih =>
    rw [List.flatMap_cons, List.filterMap_append, CallRun.started_events, ih]
    rfl

private theorem reports_closed {settings : Settings} {ran : List CallRun}
    (sound : ∀ y ∈ ran, y.failure? settings = none) :
    List.Forall₂ (fun y output => y.Closed settings y.events output) ran
      (ran.filterMap fun y => (y.report settings).toOption) := by
  induction ran with
  | nil => exact .nil
  | cons y ys ih =>
    have rest := ih fun z hz => sound z (by simp [hz])
    cases reported : y.report settings with
    | error e =>
      have failed := sound y (by simp)
      simp [CallRun.failure?, reported] at failed
    | ok output =>
      have head : (y :: ys).filterMap (fun y => (y.report settings).toOption) =
          output :: ys.filterMap fun y => (y.report settings).toOption := by
        simp [reported, Except.toOption]
      rw [head]
      exact .cons (CallRun.closed_of_report reported) rest

private theorem closed_sound {settings : Settings} {ran : List CallRun} {outputs : List String}
    (closed : List.Forall₂ (fun y output => y.Closed settings y.events output) ran outputs) :
    ∀ y ∈ ran, y.failure? settings = none := by
  induction closed with
  | nil => simp
  | cons first _ ih =>
    intro y hy
    obtain rfl | hy := List.mem_cons.mp hy
    · simp [CallRun.failure?, first.report_eq]
    · exact ih y hy

/-- A round that follows its host is traced exactly if it has no failure. -/
theorem traced_iff {settings : Settings} {x : Round}
    (ran : x.failure? settings = none → x.ran.map CallRun.call = ToolCall.ofText x.text) :
    x.Traced settings ↔ x.failure? settings = none := by
  constructor
  · rintro ⟨⟨pieces, unbroken, -⟩, -, outputs, closed, -⟩
    rw [failure?, unbroken, Reply.failure?_eq_none (by simp), Option.none_or,
      List.findSome?_eq_none_iff]
    exact closed_sound closed
  · intro sound
    obtain ⟨unbroken, settled⟩ := Option.or_eq_none_iff.mp sound
    obtain ⟨pieces, streamed⟩ := Reply.exists_pieces unbroken
    refine ⟨⟨pieces, streamed, ?_, ?_⟩, ran sound, _,
      reports_closed (List.findSome?_eq_none_iff.mp settled), fun busy => ?_⟩
    · rw [streamed, Reply.delivered_ok]
    · rw [text, streamed, Reply.join_delivered]
    · have called : x.calls.isEmpty = false := by
        rw [calls, ← ran sound]
        cases hr : x.ran with
        | nil => exact absurd hr busy
        | cons y ys => rfl
      rw [answer, called]
      rfl

end Round

namespace TurnHost

/-- Where no call ends the turn, all calls are run, in order. -/
theorem runCalls_calls {host : TurnHost σ} {settings : Settings} {calls : List ToolCall} {world : σ}
    (sound : ∀ y ∈ (host.runCalls settings calls world).1, y.failure? settings = none) :
    (host.runCalls settings calls world).1.map CallRun.call = calls := by
  induction calls generalizing world with
  | nil => rfl
  | cons call calls ih =>
    have same : (host.runCall call world).1.call = call := rfl
    simp only [runCalls] at sound ⊢
    cases failed : (host.runCall call world).1.failure? settings with
    | some e =>
      simp only [failed] at sound
      have none_failed := sound (host.runCall call world).1 (by simp)
      simp [failed] at none_failed
    | none =>
      simp only [failed] at sound ⊢
      rw [List.map_cons, same, ih fun y hy => sound y (by simp [hy])]

theorem round_calls {host : TurnHost σ} {settings : Settings} {q : Query} {world next : σ} {x : Round}
    (played : host.round settings q world = (x, next)) (sound : x.failure? settings = none) :
    x.ran.map CallRun.call = ToolCall.ofText x.text := by
  unfold round at played
  dsimp only at played
  split at played
  · next e broken =>
    obtain ⟨rfl, -⟩ := Prod.mk.inj played
    simp [Round.failure?, broken] at sound
  · next unbroken =>
    obtain ⟨rfl, -⟩ := Prod.mk.inj played
    rw [Round.failure?, unbroken, Option.none_or, List.findSome?_eq_none_iff] at sound
    exact runCalls_calls sound

theorem Plays.traced_iff {host : TurnHost σ} {settings : Settings} {world after : σ}
    {rounds : List Round} (plays : host.Plays settings world rounds after) :
    ∀ x ∈ rounds, (x.Traced settings ↔ x.failure? settings = none) := by
  induction rounds generalizing world with
  | nil => simp
  | cons x xs ih =>
    obtain ⟨next, played, rest⟩ := plays
    intro y hy
    obtain rfl | hy := List.mem_cons.mp hy
    · exact Round.traced_iff (round_calls played)
    · exact ih rest y hy

end TurnHost

/-- A host whose model always answers the same, with the tools of a toolbox. -/
def Toolbox.answering (box : Toolbox) (reply : String) : TurnHost Workbench where
  reply _ := pure [.ok reply]
  execute := box.execute
  newIdentifier := Workbench.newIdentifier

namespace TurnRequest

/-- What a turn did, told by its rounds: the events and the requests, each started call under an
identifier of its own, and the messages that it was asked with and ends with. It returns exactly if all
its rounds are traced; otherwise all but the last are. -/
structure TracedBy (r : TurnRequest) (messages : List Message) (rounds : List Round)
    (outcome : Except Failure TurnResult) (t : TurnRun σ) : Prop where
  events_eq : t.events = rounds.flatMap Round.events
  starts_nodup : (t.events.filterMap Event.started?).Nodup
  requests_eq : t.requests = rounds.map Round.asked
  asked_eq : ∀ before x after, rounds = before ++ x :: after → x.asked =
    r.query ⟨r.prompt messages, messages.filter (·.role != .system) ++
      before.flatMap (Round.exchange r.settings)⟩
  returns_iff : (∃ result, outcome = .ok result) ↔ ∀ x ∈ rounds, x.Traced r.settings
  messages_eq : ∀ result, outcome = .ok result →
    result.conversation.messages = ⟨.system, r.prompt messages⟩ ::
      messages.filter (·.role != .system) ++ Round.transcript r.settings rounds
  broken_off : ∀ e, outcome = .error e → ∃ before x, rounds = before ++ [x] ∧
    (∀ y ∈ before, y.Traced r.settings) ∧ x.failure? r.settings = some e

theorem started_rounds (rounds : List Round) :
    (rounds.flatMap Round.events).filterMap Event.started? =
      rounds.flatMap fun x => x.ran.map CallRun.id := by
  induction rounds with
  | nil => rfl
  | cons x xs ih =>
    rw [List.flatMap_cons, List.filterMap_append, Round.started_events, ih]
    rfl

/-- The events of a turn are those of its rounds: the pieces of each reply, and then, for each call of
the reply in order, its start and its result or error. All rounds are so where every tool answers and no
listing is nested too deep. -/
theorem run_traces_rounds (r : TurnRequest) (host : TurnHost σ) (messages : List Message) (world : σ)
    {given : σ → String → Prop} (fresh : host.Fresh given) (accepts : ∀ n, host.accepts n = true) :
    ∃ rounds, host.Plays r.settings world rounds (r.run host messages world).2.world ∧
      r.TracedBy messages rounds (r.run host messages world).1 (r.run host messages world).2 ∧
      ((∀ x ∈ rounds, x.Undisturbed ∧ x.Legible r.settings) →
        ∃ result, (r.run host messages world).1 = .ok result) := by
  obtain ⟨rounds, course, plays, requests, events⟩ := r.exists_course host messages world accepts
  have traced := plays.traced_iff
  have returns : (∃ result, (r.run host messages world).1 = .ok result) ↔
      ∀ x ∈ rounds, x.failure? r.settings = none := by
    constructor
    · rintro ⟨result, returned⟩
      exact (course.sound returned).1
    · intro sound
      cases outcome : (r.run host messages world).1 with
      | ok result => exact ⟨result, rfl⟩
      | error e =>
        obtain ⟨before, x, rfl, -, failed⟩ := course.broken_off outcome
        rw [sound x (by simp)] at failed
        contradiction
  refine ⟨rounds, plays, {
    events_eq := events
    starts_nodup := ?_
    requests_eq := requests
    asked_eq := fun before x after split => course.asked_eq split
    returns_iff := returns.trans (forall₂_congr fun x hx => (traced x hx).symm)
    messages_eq := fun result returned => ?_
    broken_off := fun e failed => ?_ }, fun answered => returns.mpr fun x hx => ?_⟩
  · rw [events, started_rounds]
    exact (fresh.draws_plays plays).nodup
  · rw [(course.sound returned).2.2.2.1]
    rfl
  · obtain ⟨before, x, rfl, sound, broken⟩ := course.broken_off failed
    exact ⟨before, x, rfl, fun y hy => (traced y (by simp [hy])).mpr (sound y hy), broken⟩
  · exact (Round.failure?_eq_none_iff (answered x hx).1).mpr (answered x hx).2

theorem run_traces_rounds_of_service :
    let r : TurnRequest := { settings := {}, model := "m", osName := "linux" }
    let host := Service.turnHost { settings := {}, outliner := standardOutliner }
    let world : ServiceWorld := { bench := { files := {}, index := {} } }
    host.Fresh Service.Given ∧ (∀ n, host.accepts n = true) ∧
      ∃ rounds, host.Plays r.settings world rounds (r.run host [] world).2.world ∧
        r.TracedBy [] rounds (r.run host [] world).1 (r.run host [] world).2 ∧
        ((∀ x ∈ rounds, x.Undisturbed ∧ x.Legible r.settings) →
          ∃ result, (r.run host [] world).1 = .ok result) :=
  ⟨Service.turnHost_fresh _, fun _ => rfl,
    run_traces_rounds _ _ [] _ (Service.turnHost_fresh _) fun _ => rfl⟩

/-- The model looks for files by name in a workspace whose ignore file holds a single exclamation mark.
The search is started, and no event closes it. -/
theorem run_leaves_start_open :
    let r : TurnRequest := { settings := {}, model := "m", osName := "linux" }
    let box : Toolbox := { settings := {}, workspace := some (Place.path []), outliner := standardOutliner }
    let host := box.answering "<find_by_name pattern=\"x\"/>"
    let files : FileSystem := { root := .folder [(".gitignore", .file [33] 0)] }
    (∀ n, host.accepts n = true) ∧
      (r.run host [] { files, index := {} }).2.events.map Event.type = ["chunk", "agent-tool-start"] :=
  ⟨fun _ => rfl, by decide +kernel⟩

end TurnRequest
end CodeAgent
