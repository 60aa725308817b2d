import CodeAgent.Proofs.Agent.Rounds

/-! The course of a turn: its rounds, the requests they send, and the result they lead to. -/
namespace CodeAgent
open CodeAgent.Text
variable {σ : Type}

namespace TurnAction
variable {host : TurnHost σ}

theorem exec_emit (accepts : ∀ n, host.accepts n = true) (e : Event) (t : TurnRun σ) :
    exec (emit host e) t = (.ok (), { t with events := t.events ++ [e] }) := by
  have taken : exec (emit host e) t = exec (if host.accepts t.events.length then
      set { t with events := t.events ++ [e] }
      else throw (.fault (Fault.emissionFailed e.type))) t := rfl
  rw [taken, if_pos (accepts _)]
  rfl

theorem exec_drain (accepts : ∀ n, host.accepts n = true) (reply : Reply) (t : TurnRun σ) :
    exec (drain (fun piece => emit host (.chunk piece)) reply) t =
      (match Reply.failure? reply with
        | none => .ok (Reply.delivered reply)
        | some e => .error e,
        { t with events := t.events ++ (Reply.delivered reply).map .chunk }) := by
  induction reply generalizing t with
  | nil => simp [drain, Reply.failure?, Reply.delivered]
  | cons piece rest ih =>
    cases piece with
    | error e => simp [drain, Reply.failure?, Reply.delivered]
    | ok piece =>
      simp only [drain, Reply.failure?, Reply.delivered]
      split
      · exact ih t
      · rw [exec_bind_ok (exec_emit accepts _ t), exec_bind, ih]
        cases Reply.failure? rest <;> simp

theorem exec_ask (accepts : ∀ n, host.accepts n = true) (q : Query) (t : TurnRun σ) :
    exec (ask host q) t =
      (match Reply.failure? ((host.reply q).run t.world).1 with
        | none => .ok (String.join (Reply.delivered ((host.reply q).run t.world).1))
        | some e => .error e,
        { t with
          world := ((host.reply q).run t.world).2
          requests := t.requests ++ [q]
          events := t.events ++ (Reply.delivered ((host.reply q).run t.world).1).map .chunk }) := by
  have sent : exec (ask host q) t =
      exec (drain (fun piece => emit host (.chunk piece)) ((host.reply q).run t.world).1 >>=
        fun pieces => pure (String.join pieces))
        { t with world := ((host.reply q).run t.world).2, requests := t.requests ++ [q] } := rfl
  rw [sent, exec_bind, exec_drain accepts]
  cases Reply.failure? ((host.reply q).run t.world).1 <;> rfl

private theorem exec_settle (accepts : ∀ n, host.accepts n = true) (settings : Settings)
    (x : CallRun) (t : TurnRun σ) :
    exec (settle host settings x.id x.call x.outcome) t =
      (x.report settings, { t with events := t.events ++ x.events.tail }) := by
  obtain ⟨id, call, outcome⟩ := x
  cases outcome with
  | ok result =>
    simp only [settle, CallRun.report, CallRun.events, List.tail_cons]
    rw [exec_bind_ok (exec_emit accepts _ t)]
    cases ToolReport.formatted call.name settings.maxListedSymbols
      (ToolReport.truncated settings.maxResultChars result) <;> rfl
  | error e =>
    cases e with
    | fault f =>
      simp only [settle, CallRun.report, CallRun.events, List.tail_cons]
      cases f.kind.isTool with
      | true =>
        simp only [Bool.not_true, Bool.false_eq_true, if_false, if_true]
        rw [exec_bind_ok (exec_emit accepts _ t)]
        rfl
      | false => simp
    | _ => simp [settle, CallRun.report, CallRun.events]

theorem exec_runCall (accepts : ∀ n, host.accepts n = true) (settings : Settings) (call : ToolCall)
    (t : TurnRun σ) :
    exec (runCall host settings call) t =
      ((host.runCall call t.world).1.report settings,
        { t with
          world := (host.runCall call t.world).2
          events := t.events ++ (host.runCall call t.world).1.events }) := by
  unfold runCall
  rw [exec_bind_ok (exec_onWorld host.newIdentifier t), exec_bind_ok (exec_emit accepts _ _),
    exec_bind_ok (exec_onWorld _ _)]
  exact (exec_settle accepts settings (host.runCall call t.world).1 _).trans (by
    simp only [List.append_assoc]
    rfl)

theorem exec_runCalls (accepts : ∀ n, host.accepts n = true) (settings : Settings)
    (calls : List ToolCall) (t : TurnRun σ) :
    exec (runCalls host settings calls) t =
      (match (host.runCalls settings calls t.world).1.findSome? (CallRun.failure? settings) with
        | none => .ok ((host.runCalls settings calls t.world).1.filterMap
            fun y => (y.report settings).toOption)
        | some e => .error e,
        { t with
          world := (host.runCalls settings calls t.world).2
          events := t.events ++ (host.runCalls settings calls t.world).1.flatMap CallRun.events }) := by
  induction calls generalizing t with
  | nil => simp [runCalls, TurnHost.runCalls]
  | cons call calls ih =>
    rw [runCalls, exec_bind, exec_runCall accepts]
    simp only [TurnHost.runCalls]
    generalize host.runCall call t.world = made
    obtain ⟨x, world⟩ := made
    cases hx : x.report settings with
    | error e =>
      have hf : x.failure? settings = some e := by simp [CallRun.failure?, hx]
      simp [hf]
    | ok output =>
      have hf : x.failure? settings = none := by simp [CallRun.failure?, hx]
      simp only [hf]
      rw [exec_bind, ih]
      cases hr : (host.runCalls settings calls world).1.findSome? (CallRun.failure? settings) <;>
        simp [hx, hf, hr, Except.toOption]

end TurnAction

/-- A conversation with further messages. -/
def Conversation.extend (c : Conversation) (ms : List Message) : Conversation :=
  { c with history := c.history ++ ms }

namespace Conversation

@[simp] theorem extend_nil (c : Conversation) : c.extend [] = c := by simp [extend]

@[simp] theorem extend_extend (c : Conversation) (ms ns : List Message) :
    (c.extend ms).extend ns = c.extend (ms ++ ns) := by simp [extend]

theorem extend_closing {c : Conversation} {settings : Settings} {x : Round} (silent : x.calls = []) :
    c.extend (x.closing settings) = c.addAssistant x.text := by
  simp [extend, Round.closing, silent, addAssistant, add]

theorem extend_exchange {c : Conversation} {settings : Settings} {x : Round} :
    c.extend (x.exchange settings) = (c.addAssistant x.text).add (x.answer settings) := by
  simp [extend, Round.exchange, addAssistant, add]

end Conversation

/-- The run after a round. -/
def TurnRun.after (t : TurnRun σ) (x : Round) (world : σ) (stage : TurnStage) : TurnRun σ where
  world
  stage
  events := t.events ++ x.events
  requests := t.requests ++ [x.asked]

/-- The rounds of a turn, given how many are left, and what they come to. -/
inductive TurnRequest.Course (r : TurnRequest) :
    Nat → Nat → String → Conversation → List Round → Except Failure TurnResult → Prop where
  | exhausted {iterations finalText c} :
    Course r 0 iterations finalText c [] (.ok ⟨finalText, iterations, .maxIterations, c⟩)
  | broken {left iterations finalText c x e} :
    x.asked = r.query c → x.failure? r.settings = some e →
      Course r (left + 1) iterations finalText c [x] (.error e)
  | completed {left iterations finalText c x} :
    x.asked = r.query c → x.failure? r.settings = none → x.completes r.settings = true →
      Course r (left + 1) iterations finalText c [x]
        (.ok ⟨x.text, iterations + 1, .completed, c.extend (x.closing r.settings)⟩)
  | onward {left iterations finalText c x xs outcome} :
    x.asked = r.query c → x.failure? r.settings = none → x.completes r.settings = false →
      Course r left (iterations + 1) x.text
        (c.extend (if left = 0 then x.closing r.settings else x.exchange r.settings)) xs outcome →
      Course r (left + 1) iterations finalText c (x :: xs) outcome

namespace TurnAction
variable {host : TurnHost σ}

/-- A round either ends the turn by its failure, or completes it, or is followed by the others. -/
private theorem exec_rounds_succ (accepts : ∀ n, host.accepts n = true) (r : TurnRequest)
    (left iterations : Nat) (finalText : String) (c : Conversation) (t : TurnRun σ) {x : Round}
    {world : σ} (played : host.round r.settings (r.query c) t.world = (x, world)) :
    (∃ e stage, x.failure? r.settings = some e ∧
      exec (rounds host r (left + 1) iterations finalText c) t = (.error e, t.after x world stage)) ∨
    x.failure? r.settings = none ∧ x.completes r.settings = true ∧
      exec (rounds host r (left + 1) iterations finalText c) t =
        (.ok ⟨x.text, iterations + 1, .completed, c.extend (x.closing r.settings)⟩,
          t.after x world .noAction) ∨
    x.failure? r.settings = none ∧ x.completes r.settings = false ∧
      exec (rounds host r (left + 1) iterations finalText c) t =
        exec (rounds host r left (iterations + 1) x.text
          (c.extend (if left = 0 then x.closing r.settings else x.exchange r.settings)))
          (t.after x world .composing) := by
  rw [rounds, exec_bind_ok (exec_enter .streaming t), exec_bind, exec_ask accepts]
  unfold TurnHost.round at played
  dsimp only at played ⊢
  generalize (host.reply (r.query c)).run t.world = answered at played ⊢
  obtain ⟨reply, w⟩ := answered
  cases hf : Reply.failure? reply with
  | some e =>
    simp only [hf] at played
    obtain ⟨rfl, rfl⟩ := Prod.mk.inj played
    left
    exact ⟨e, .streaming, by simp [Round.failure?, hf], by simp [TurnRun.after, Round.events]⟩
  | none =>
    simp only [hf] at played ⊢
    generalize hm : host.runCalls r.settings (ToolCall.ofText (String.join reply.delivered)) w =
      made at played
    obtain ⟨ran, w'⟩ := made
    obtain ⟨rfl, rfl⟩ := Prod.mk.inj played
    rw [exec_bind_ok (exec_enter .parsing _)]
    cases hc : ToolCall.ofText (String.join reply.delivered) with
    | nil =>
      rw [hc] at hm
      obtain ⟨rfl, rfl⟩ := Prod.mk.inj hm
      have silent : (Round.mk (r.query c) reply []).calls = [] := hc
      have sound : (Round.mk (r.query c) reply []).failure? r.settings = none := by
        simp [Round.failure?, hf]
      dsimp only
      rw [exec_bind_ok (exec_enter .noAction _)]
      right
      by_cases hk : containsText (String.join reply.delivered) r.settings.completionMarker = true
      · left
        refine ⟨sound, by simp [Round.completes, silent, Round.text, hk], ?_⟩
        rw [if_pos hk]
        simp [Round.closing, silent, Round.text, Conversation.extend, Conversation.addAssistant,
          Conversation.add, TurnRun.after, Round.events]
      · right
        refine ⟨sound, by simp [Round.completes, silent, Round.text, hk], ?_⟩
        rw [if_neg hk, exec_bind_ok (exec_enter .composing _), apply_ite c.extend,
          Conversation.extend_closing silent, Conversation.extend_exchange]
        simp [Round.answer, silent, Round.text, Conversation.addUser, TurnRun.after, Round.events]
    | cons call calls =>
      rw [hc] at hm
      have busy : (Round.mk (r.query c) reply ran).calls = call :: calls := hc
      dsimp only
      rw [exec_bind_ok (exec_enter .executing _), exec_bind, exec_runCalls accepts, hm]
      cases hx : ran.findSome? (CallRun.failure? r.settings) with
      | some e =>
        left
        exact ⟨e, .executing, by simp [Round.failure?, hf, hx],
          by simp [TurnRun.after, Round.events]⟩
      | none =>
        right
        right
        refine ⟨by simp [Round.failure?, hf, hx], by simp [Round.completes, busy], ?_⟩
        have answered : (Round.mk (r.query c) reply ran).closing r.settings =
            (Round.mk (r.query c) reply ran).exchange r.settings := by
          simp [Round.closing, Round.exchange, busy]
        dsimp only
        rw [exec_bind_ok (exec_enter .composing _), answered, ite_self, Conversation.extend_exchange]
        simp [Round.answer, busy, Round.text, Conversation.addUser, TurnRun.after, Round.events]

/-- What the rounds of a turn come to follows their course; the run holds their requests and events. -/
theorem exec_rounds (accepts : ∀ n, host.accepts n = true) (r : TurnRequest)
    (left iterations : Nat) (finalText : String) (c : Conversation) (t : TurnRun σ) :
    ∃ xs, r.Course left iterations finalText c xs
        (exec (rounds host r left iterations finalText c) t).1 ∧
      host.Plays r.settings t.world xs
        (exec (rounds host r left iterations finalText c) t).2.world ∧
      (exec (rounds host r left iterations finalText c) t).2.requests =
        t.requests ++ xs.map Round.asked ∧
      (exec (rounds host r left iterations finalText c) t).2.events =
        t.events ++ xs.flatMap Round.events := by
  induction left generalizing iterations finalText c t with
  | zero => exact ⟨[], .exhausted, rfl, by simp [rounds], by simp [rounds]⟩
  | succ left ih =>
    obtain ⟨x, world, played⟩ : ∃ x world, host.round r.settings (r.query c) t.world = (x, world) :=
      ⟨_, _, rfl⟩
    have asked : x.asked = r.query c := by
      simpa [played] using host.round_asked r.settings (r.query c) t.world
    have plays : host.round r.settings x.asked t.world = (x, world) := by rw [asked, played]
    obtain ⟨e, stage, hf, he⟩ | ⟨hf, hk, he⟩ | ⟨hf, hk, he⟩ :=
      exec_rounds_succ accepts r left iterations finalText c t played
    · rw [he]
      exact ⟨[x], .broken asked hf, ⟨world, plays, rfl⟩, by simp [TurnRun.after],
        by simp [TurnRun.after]⟩
    · rw [he]
      exact ⟨[x], .completed asked hf hk, ⟨world, plays, rfl⟩, by simp [TurnRun.after],
        by simp [TurnRun.after]⟩
    · rw [he]
      obtain ⟨xs, course, rest, requests, events⟩ := ih (iterations + 1) x.text
        (c.extend (if left = 0 then x.closing r.settings else x.exchange r.settings))
        (t.after x world .composing)
      refine ⟨x :: xs, .onward asked hf hk course, ⟨world, plays, rest⟩, ?_, ?_⟩
      · rw [requests]
        simp [TurnRun.after]
      · rw [events]
        simp [TurnRun.after]

end TurnAction

namespace TurnRequest.Course
variable {r : TurnRequest} {left iterations : Nat} {finalText : String} {c : Conversation}
  {xs : List Round}

theorem length_le {outcome : Except Failure TurnResult}
    (h : r.Course left iterations finalText c xs outcome) : xs.length ≤ left := by
  induction h with
  | exhausted => simp
  | broken => simp
  | completed => simp
  | onward _ _ _ _ ih => simpa using ih

/-- Every round is asked with the conversation as the rounds before it left it. -/
theorem asked_eq {outcome : Except Failure TurnResult}
    (h : r.Course left iterations finalText c xs outcome) {before after : List Round} {x : Round}
    (split : xs = before ++ x :: after) :
    x.asked = r.query (c.extend (before.flatMap (Round.exchange r.settings))) := by
  induction h generalizing before with
  | exhausted => simp at split
  | broken asked =>
    cases before with
    | nil => simpa [← (List.cons.inj split).1] using asked
    | cons y ys => simp at split
  | completed asked =>
    cases before with
    | nil => simpa [← (List.cons.inj split).1] using asked
    | cons y ys => simp at split
  | @onward left _ _ _ _ ys _ asked _ _ rest ih =>
    cases before with
    | nil => simpa [← (List.cons.inj split).1] using asked
    | cons y before =>
      obtain ⟨rfl, more⟩ : _ ∧ ys = before ++ x :: after := List.cons.inj split
      have nonzero : left ≠ 0 := by
        have := rest.length_le
        rw [more, List.length_append, List.length_cons] at this
        omega
      rw [ih more, if_neg nonzero, Conversation.extend_extend]
      rfl

/-- A turn that does not break off had a sound course: no round has a failure, only the last one can
complete it, and without that all rounds were used up. -/
theorem sound {outcome : Except Failure TurnResult} {result : TurnResult}
    (h : r.Course left iterations finalText c xs outcome) (ok : outcome = .ok result) :
    (∀ x ∈ xs, x.failure? r.settings = none) ∧
    result.iterations = iterations + xs.length ∧
    result.finalText = (xs.map Round.text).getLastD finalText ∧
    result.conversation = c.extend (Round.transcript r.settings xs) ∧
    (∀ x ∈ xs.dropLast, x.completes r.settings = false) ∧
    (result.reason = .completed ∧ (∃ x ∈ xs.getLast?, x.completes r.settings = true) ∨
      result.reason = .maxIterations ∧ xs.length = left ∧
        ∀ x ∈ xs, x.completes r.settings = false) := by
  induction h with
  | exhausted =>
    cases ok
    simp [Round.transcript]
  | broken => simp at ok
  | completed _ hf hk =>
    cases ok
    simp [Round.transcript, hf, hk]
  | @onward left _ _ _ x ys _ _ hf hk rest ih =>
    obtain ⟨sound, iterations_eq, text_eq, conversation_eq, unfinished, ending⟩ := ih ok
    have all : ∀ y ∈ x :: ys, y.failure? r.settings = none := by simpa [hf] using sound
    cases ys with
    | nil =>
      cases rest
      cases ok
      simpa [Round.transcript, hk] using hf
    | cons y zs =>
      have nonzero : left ≠ 0 := by
        rintro rfl
        cases rest
      rw [if_neg nonzero, Conversation.extend_extend] at conversation_eq
      refine ⟨all, ?_, text_eq.trans (by simp [List.getLast?_cons]),
        conversation_eq, by simpa [hk] using unfinished, ?_⟩
      · rw [iterations_eq]
        simp only [List.length_cons]
        omega
      · obtain ⟨reason, last⟩ | ⟨reason, used, none⟩ := ending
        · exact .inl ⟨reason, by simpa using last⟩
        · exact .inr ⟨reason, by simpa using used, by simpa [hk] using none⟩

/-- A turn breaks off in its last round, by the failure of that round. -/
theorem broken_off {outcome : Except Failure TurnResult} {e : Failure}
    (h : r.Course left iterations finalText c xs outcome) (error : outcome = .error e) :
    ∃ before x, xs = before ++ [x] ∧ (∀ y ∈ before, y.failure? r.settings = none) ∧
      x.failure? r.settings = some e := by
  induction h with
  | exhausted => simp at error
  | @broken _ _ _ _ x _ _ hf =>
    cases error
    exact ⟨[], x, rfl, by simp, hf⟩
  | completed => simp at error
  | @onward _ _ _ _ x _ _ _ hf _ _ ih =>
    obtain ⟨before, y, rfl, sound, failed⟩ := ih error
    exact ⟨x :: before, y, rfl, by simpa [hf] using sound, failed⟩

end TurnRequest.Course
end CodeAgent
