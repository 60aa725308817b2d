import CodeAgent.Proofs.Agent.TurnCourse
import CodeAgent.Proofs.Json.Limits

/-! When a turn returns, and what its result then says of the rounds it went through. -/
namespace CodeAgent
open CodeAgent.Text
variable {σ : Type}

namespace ToolReport

/-- A text is laid out as a list for the model, and is nested too deep to be read as one. -/
def TooNested (tool text : String) : Prop :=
  (listsFiles tool || tool == Tool.searchCodebase.name) = true ∧ Json.read text = .error .tooDeep

/-- Laying out a result breaks down exactly on a listing that is nested too deep. -/
theorem formatted_eq_error_iff {tool : String} {most : Int} {text : String} {b : Breakdown} :
    formatted tool most text = .error b ↔ TooNested tool text ∧ b = .tooNested := by
  unfold formatted TooNested
  split
  · next lists =>
    split
    · next hr => simp [hr]
    · next hr => simp [lists, hr, eq_comm]
    · next hr => exact ⟨fun h => by simp at h, fun h => absurd h.1.2 hr⟩
  · next lists => simp [lists]

end ToolReport

namespace CallRun

/-- A tool answers with a text, or with a fault of its own. -/
def Answered (x : CallRun) : Prop :=
  (∃ text, x.outcome = .ok text) ∨ ∃ f, x.outcome = .error (.fault f) ∧ f.kind.isTool = true

/-- A tool answers with a listing that is nested too deep to be laid out. -/
def Illegible (settings : Settings) (x : CallRun) : Prop :=
  ∃ text, x.outcome = .ok text ∧
    ToolReport.TooNested x.call.name (ToolReport.truncated settings.maxResultChars text)

theorem failure?_eq_some_iff {settings : Settings} {x : CallRun} (answered : x.Answered)
    {e : Failure} :
    x.failure? settings = some e ↔ x.Illegible settings ∧ e = .breakdown .tooNested := by
  obtain ⟨id, call, outcome⟩ := x
  obtain ⟨text, rfl⟩ | ⟨f, rfl, kind⟩ := answered
  · have laid : failure? settings ⟨id, call, .ok text⟩ = some e ↔
        ∃ b, ToolReport.formatted call.name settings.maxListedSymbols
          (ToolReport.truncated settings.maxResultChars text) = .error b ∧ .breakdown b = e := by
      simp only [failure?, report]
      cases ToolReport.formatted call.name settings.maxListedSymbols
        (ToolReport.truncated settings.maxResultChars text) <;> simp
    rw [laid]
    simp only [ToolReport.formatted_eq_error_iff, Illegible]
    constructor
    · rintro ⟨b, ⟨nested, rfl⟩, rfl⟩
      exact ⟨⟨text, rfl, nested⟩, rfl⟩
    · rintro ⟨⟨_, same, nested⟩, rfl⟩
      cases same
      exact ⟨_, ⟨nested, rfl⟩, rfl⟩
  · simp [failure?, report, kind, Illegible]

end CallRun

namespace Round

/-- The stream of the reply does not break off, and every call that was run has an answer. -/
def Undisturbed (x : Round) : Prop :=
  (∀ piece ∈ x.reply, ∃ s, piece = .ok s) ∧ ∀ y ∈ x.ran, y.Answered

/-- No call of a round has a listing that is nested too deep. -/
def Legible (settings : Settings) (x : Round) : Prop :=
  ∀ y ∈ x.ran, ¬ y.Illegible settings

theorem failure?_eq_none_iff {settings : Settings} {x : Round} (undisturbed : x.Undisturbed) :
    x.failure? settings = none ↔ x.Legible settings := by
  simp only [failure?, Reply.failure?_eq_none undisturbed.1, Option.none_or,
    List.findSome?_eq_none_iff, Legible]
  refine forall₂_congr fun y hy => ?_
  rw [Option.eq_none_iff_forall_ne_some]
  simp only [ne_eq, CallRun.failure?_eq_some_iff (undisturbed.2 y hy)]
  simp

theorem failure?_eq_too_nested {settings : Settings} {x : Round} (undisturbed : x.Undisturbed)
    {e : Failure} (failed : x.failure? settings = some e) : e = .breakdown .tooNested := by
  simp only [failure?, Reply.failure?_eq_none undisturbed.1, Option.none_or] at failed
  obtain ⟨y, hy, hf⟩ := List.exists_of_findSome?_eq_some failed
  exact ((CallRun.failure?_eq_some_iff (undisturbed.2 y hy)).mp hf).2

end Round

namespace TurnHost

/-- A host whose model and tools always answer the same. -/
def steady (reply answer : String) : TurnHost Unit where
  reply _ := pure [.ok reply]
  execute _ := pure answer
  newIdentifier := pure "1"

theorem steady_round_fails {settings : Settings} {reply answer : String} {call : ToolCall}
    {calls : List ToolCall} (called : ToolCall.ofText reply = call :: calls) (filled : reply ≠ "")
    (nested : ToolReport.TooNested call.name (ToolReport.truncated settings.maxResultChars answer))
    (q : Query) : ((steady reply answer).round settings q ()).1.failure? settings =
      some (.breakdown .tooNested) := by
  have failed : CallRun.failure? settings ⟨"1", call, .ok answer⟩ = some (.breakdown .tooNested) :=
    (CallRun.failure?_eq_some_iff (.inl ⟨answer, rfl⟩)).mpr ⟨⟨answer, rfl, nested⟩, rfl⟩
  have text : String.join (Reply.delivered [.ok reply]) = reply := by
    simp [Reply.delivered, filled, String.join]
  have made : (steady reply answer).runCalls settings (call :: calls) () =
      ([⟨"1", call, .ok answer⟩], ()) := by
    have ran : (steady reply answer).runCall call () = (⟨"1", call, .ok answer⟩, ()) := rfl
    rw [runCalls, ran]
    dsimp only
    rw [failed]
  change Round.failure? settings ⟨q, [.ok reply], ((steady reply answer).runCalls settings
    (ToolCall.ofText (String.join (Reply.delivered [.ok reply]))) ()).1⟩ = _
  rw [text, called, made]
  simp [Round.failure?, Reply.failure?, failed]

end TurnHost

namespace TurnRequest

/-- A result that is as the rounds of a turn demand. -/
structure Concludes (r : TurnRequest) (messages : List Message) (rounds : List Round)
    (result : TurnResult) : Prop where
  iterations_eq : result.iterations = rounds.length
  iterations_pos : 1 ≤ result.iterations
  iterations_le : (result.iterations : Int) ≤ r.settings.maxIterations
  unfinished : ∀ x ∈ rounds.dropLast, x.completes r.settings = false
  completed_iff : result.reason = .completed ↔ ∃ x ∈ rounds.getLast?, x.completes r.settings = true
  exhausted : result.reason = .maxIterations →
    (result.iterations : Int) = r.settings.maxIterations ∧ ∀ x ∈ rounds, x.completes r.settings = false
  finalText_eq : rounds.getLast?.map Round.text = some result.finalText
  messages_eq : result.conversation.messages = ⟨.system, r.prompt messages⟩ ::
    messages.filter (·.role != .system) ++ Round.transcript r.settings rounds
  asked_eq : ∀ before x after, rounds = before ++ x :: after → x.asked =
    r.query ⟨r.prompt messages, messages.filter (·.role != .system) ++
      before.flatMap (Round.exchange r.settings)⟩

/-- The rounds of a turn whose sink takes every event. -/
theorem exists_course (r : TurnRequest) (host : TurnHost σ) (messages : List Message) (world : σ)
    (accepts : ∀ n, host.accepts n = true) :
    ∃ rounds, r.Course r.settings.maxIterations.toNat 0 "" (.start (r.prompt messages) messages)
        rounds (r.run host messages world).1 ∧
      host.Plays r.settings world rounds (r.run host messages world).2.world ∧
      (r.run host messages world).2.requests = rounds.map Round.asked ∧
      (r.run host messages world).2.events = rounds.flatMap Round.events := by
  obtain ⟨rounds, course, plays, requests, events⟩ := TurnAction.exec_rounds accepts r
    r.settings.maxIterations.toNat 0 "" (.start (r.prompt messages) messages) { world }
  have ran : r.run host messages world = TurnAction.exec (TurnAction.rounds host r
      r.settings.maxIterations.toNat 0 "" (.start (r.prompt messages) messages) >>=
        fun result => TurnAction.enter .done >>= fun _ => pure result) { world } := rfl
  rw [ran, TurnAction.exec_bind]
  generalize TurnAction.exec (TurnAction.rounds host r r.settings.maxIterations.toNat 0 ""
    (.start (r.prompt messages) messages)) { world } = out at course plays requests events
  obtain ⟨outcome, t⟩ := out
  refine ⟨rounds, ?_⟩
  cases outcome with
  | ok result => exact ⟨course, plays, requests, events⟩
  | error e => exact ⟨course, plays, requests, events⟩

theorem Course.concludes {r : TurnRequest} {messages : List Message} {rounds : List Round}
    {result : TurnResult} (positive : 1 ≤ r.settings.maxIterations)
    (course : r.Course r.settings.maxIterations.toNat 0 "" (.start (r.prompt messages) messages)
      rounds (.ok result)) : r.Concludes messages rounds result := by
  obtain ⟨-, iterations_eq, text_eq, conversation_eq, unfinished, ending⟩ := course.sound rfl
  have bound := course.length_le
  have some_round : rounds ≠ [] := by
    obtain ⟨-, x, last, -⟩ | ⟨-, used, -⟩ := ending
    · rintro rfl
      simp at last
    · rintro rfl
      simp only [List.length_nil] at used
      omega
  have count := List.length_pos_iff.mpr some_round
  refine {
    iterations_eq := by omega
    iterations_pos := by omega
    iterations_le := by omega
    unfinished
    completed_iff := ?_
    exhausted := ?_
    finalText_eq := ?_
    messages_eq := ?_
    asked_eq := fun before x after split => course.asked_eq split }
  · obtain ⟨reason, last⟩ | ⟨reason, -, none⟩ := ending
    · simpa [reason] using last
    · simp only [reason, reduceCtorEq, false_iff]
      rintro ⟨x, last, done⟩
      simp [none x (List.mem_of_getLast? last)] at done
  · intro reason
    obtain ⟨completed, -⟩ | ⟨-, used, none⟩ := ending
    · simp [completed] at reason
    · exact ⟨by omega, none⟩
  · obtain ⟨before, last, rfl⟩ := List.eq_nil_or_concat rounds |>.resolve_left some_round
    simp [text_eq]
  · rw [conversation_eq]
    rfl

private theorem Course.of_broken_start {r : TurnRequest} {left iterations : Nat} {finalText : String}
    {c : Conversation} {rounds : List Round} {outcome : Except Failure TurnResult} {e : Failure}
    (course : r.Course (left + 1) iterations finalText c rounds outcome)
    (start : ∀ x ∈ rounds.head?, x.failure? r.settings = some e) : outcome = .error e := by
  cases course with
  | broken _ failed =>
    have same := start _ rfl
    rw [failed] at same
    cases same
    rfl
  | completed _ sound =>
    have failed := start _ rfl
    rw [sound] at failed
    contradiction
  | onward _ sound =>
    have failed := start _ rfl
    rw [sound] at failed
    contradiction

/-- A turn ends in the failure of its first round. -/
theorem run_fails_of_first_round (r : TurnRequest) (host : TurnHost σ) (messages : List Message)
    (world : σ) (positive : 1 ≤ r.settings.maxIterations) (accepts : ∀ n, host.accepts n = true)
    {e : Failure} (fails : ∀ q, (host.round r.settings q world).1.failure? r.settings = some e) :
    (r.run host messages world).1 = .error e := by
  obtain ⟨rounds, course, plays, -⟩ := r.exists_course host messages world accepts
  obtain ⟨left, hleft⟩ : ∃ left, r.settings.maxIterations.toNat = left + 1 :=
    Nat.exists_eq_succ_of_ne_zero (by omega)
  rw [hleft] at course
  refine course.of_broken_start fun x hx => ?_
  cases rounds with
  | nil => simp at hx
  | cons y ys =>
    cases hx
    obtain ⟨next, played, -⟩ := plays
    have failed := fails x.asked
    rwa [played] at failed

/-- A turn whose sink takes every event goes through rounds of its host, one for each request. Where no
stream breaks off and every tool answers, it returns unless a listing is nested too deep. -/
theorem run_returns_unless_too_nested (r : TurnRequest) (host : TurnHost σ) (messages : List Message)
    (world : σ) (positive : 1 ≤ r.settings.maxIterations) (accepts : ∀ n, host.accepts n = true) :
    ∃ rounds, host.Plays r.settings world rounds (r.run host messages world).2.world ∧
      (r.run host messages world).2.requests = rounds.map Round.asked ∧
      ((∀ x ∈ rounds, x.Undisturbed) →
        ((∀ x ∈ rounds, x.Legible r.settings) → ∃ result,
          (r.run host messages world).1 = .ok result ∧ r.Concludes messages rounds result) ∧
        ((∃ x ∈ rounds, ¬ x.Legible r.settings) →
          (r.run host messages world).1 = .error (.breakdown .tooNested))) := by
  obtain ⟨rounds, course, plays, requests, -⟩ := r.exists_course host messages world accepts
  refine ⟨rounds, plays, requests, fun undisturbed => ?_⟩
  cases hout : (r.run host messages world).1 with
  | ok result =>
    have sound := (course.sound hout).1
    refine ⟨fun _ => ⟨result, rfl, (hout ▸ course).concludes positive⟩, ?_⟩
    rintro ⟨x, hx, illegible⟩
    exact absurd ((Round.failure?_eq_none_iff (undisturbed x hx)).mp (sound x hx)) illegible
  | error e =>
    obtain ⟨before, x, rfl, -, failed⟩ := course.broken_off hout
    have hx : x ∈ before ++ [x] := by simp
    have nested := Round.failure?_eq_too_nested (undisturbed x hx) failed
    refine ⟨fun legible => ?_, fun _ => by rw [nested]⟩
    rw [(Round.failure?_eq_none_iff (undisturbed x hx)).mpr (legible x hx)] at failed
    contradiction

theorem run_returns_unless_too_nested_steady :
    let r : TurnRequest := { settings := {}, model := "m", osName := "linux" }
    let host := TurnHost.steady "## FINAL ANSWER" ""
    1 ≤ r.settings.maxIterations ∧ (∀ n, host.accepts n = true) ∧
      ∃ rounds, host.Plays r.settings () rounds (r.run host [] ()).2.world ∧
        (r.run host [] ()).2.requests = rounds.map Round.asked ∧
        ((∀ x ∈ rounds, x.Undisturbed) →
          ((∀ x ∈ rounds, x.Legible r.settings) → ∃ result,
            (r.run host [] ()).1 = .ok result ∧ r.Concludes [] rounds result) ∧
          ((∃ x ∈ rounds, ¬ x.Legible r.settings) →
            (r.run host [] ()).1 = .error (.breakdown .tooNested))) :=
  ⟨by decide, fun _ => rfl, run_returns_unless_too_nested _ _ [] () (by decide) fun _ => rfl⟩

/-- The model asks for a search, and its result opens three thousand arrays. -/
theorem run_breaks_on_nested_listing :
    let r : TurnRequest := { settings := {}, model := "m", osName := "linux" }
    let host := TurnHost.steady "<search_files pattern=\"x\"/>" (String.ofList (List.replicate 3000 '['))
    1 ≤ r.settings.maxIterations ∧ (∀ n, host.accepts n = true) ∧
      (r.run host [] ()).1 = .error (.breakdown .tooNested) := by
  intro r host
  refine ⟨by decide, fun _ => rfl, r.run_fails_of_first_round host [] () (by decide) (fun _ => rfl) ?_⟩
  have names : (ToolCall.ofText "<search_files pattern=\"x\"/>").map ToolCall.name =
      ["search_files"] := by
    decide +kernel
  obtain ⟨call, called, name⟩ := List.map_eq_singleton_iff.mp names
  refine TurnHost.steady_round_fails called (by decide) ⟨?_, ?_⟩
  · rw [name]
    decide
  · have whole : ((String.ofList (List.replicate 3000 '[')).length : Int) ≤
        r.settings.maxResultChars := by
      rw [String.length_ofList, List.length_replicate]
      decide
    rw [ToolReport.truncated, if_pos whole]
    exact Json.read_brackets (by decide)

end TurnRequest
end CodeAgent
