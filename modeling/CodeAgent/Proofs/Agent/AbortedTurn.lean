import CodeAgent.Proofs.Agent.EventTrace
import CodeAgent.Proofs.Agent.LoggedHost

/-! Turns that are broken off, by a sink that refuses an event or by a model that fails in the middle of a
reply: what they did until then is what the undisturbed turn does, and nothing comes after. -/
namespace CodeAgent
variable {σ α β : Type}

/-- A run from which another one goes on: events and executed calls were only added. -/
structure TurnRun.Precedes (s t : TurnRun (σ × HostLog)) : Prop where
  events : s.events <+: t.events
  executed : s.world.2.executed <+: t.world.2.executed

namespace TurnRun.Precedes

theorem refl (t : TurnRun (σ × HostLog)) : t.Precedes t := ⟨List.prefix_rfl, List.prefix_rfl⟩

theorem trans {s t u : TurnRun (σ × HostLog)} (first : s.Precedes t) (second : t.Precedes u) :
    s.Precedes u :=
  ⟨first.events.trans second.events, first.executed.trans second.executed⟩

end TurnRun.Precedes

namespace TurnAction

/-- What remains of an outcome if the sink takes some events and refuses the next one: all of it if there
are no more events, and otherwise what was done before the refused event. -/
inductive CutOff (n : Nat) (full cut : Except Failure α × TurnRun (σ × HostLog)) : Prop
  | whole (short : full.2.events.length ≤ n) (same : cut = full)
  | refused {e : Event} (next : full.2.events[n]? = some e)
      (fault : cut.1 = .error (.fault (Fault.emissionFailed e.type)))
      (taken : cut.2.events = full.2.events.take n) (earlier : cut.2.Precedes full.2)

/-- The second action is the first one with a sink that takes some events and refuses the next one. -/
structure CutsOff (n : Nat) (a b : TurnAction (σ × HostLog) α) : Prop where
  onward : ∀ t : TurnRun (σ × HostLog), t.Precedes (exec a t).2
  cut : ∀ t : TurnRun (σ × HostLog), t.events.length ≤ n → CutOff n (exec a t) (exec b t)

namespace CutsOff
variable {n : Nat}

theorem pure (x : α) :
    CutsOff n (Pure.pure x : TurnAction (σ × HostLog) α) (Pure.pure x : TurnAction (σ × HostLog) α) :=
  ⟨fun t => .refl t, fun _ room => .whole room rfl⟩

theorem throw (e : Failure) :
    CutsOff n (MonadExcept.throw e : TurnAction (σ × HostLog) α)
      (MonadExcept.throw e : TurnAction (σ × HostLog) α) :=
  ⟨fun t => .refl t, fun _ room => .whole room rfl⟩

theorem enter (stage : TurnStage) :
    CutsOff n (enter stage : TurnAction (σ × HostLog) Unit) (TurnAction.enter stage) :=
  ⟨fun _ => ⟨List.prefix_rfl, List.prefix_rfl⟩, fun _ room => .whole room rfl⟩

theorem onWorld {a : StateM (σ × HostLog) α}
    (kept : ∀ w, w.2.executed <+: (a.run w).2.2.executed) : CutsOff n (onWorld a) (TurnAction.onWorld a) :=
  ⟨fun t => ⟨List.prefix_rfl, kept t.world⟩, fun _ room => .whole room rfl⟩

/-- A cut in the first of two actions is one in both, since the second one only adds to the first. -/
theorem bind {a b : TurnAction (σ × HostLog) α} {f g : α → TurnAction (σ × HostLog) β}
    (first : CutsOff n a b) (rest : ∀ x, CutsOff n (f x) (g x)) : CutsOff n (a >>= f) (b >>= g) := by
  constructor
  · intro t
    have onward := first.onward t
    rw [exec_bind]
    generalize exec a t = made at onward
    obtain ⟨outcome, t'⟩ := made
    cases outcome with
    | error e => exact onward
    | ok x => exact onward.trans ((rest x).onward t')
  · intro t room
    have cut := first.cut t room
    rw [exec_bind, exec_bind]
    generalize exec a t = full at cut
    generalize exec b t = cut' at cut
    obtain ⟨outcome, t'⟩ := full
    obtain ⟨outcome', last⟩ := cut'
    cases cut with
    | whole short same =>
      cases same
      cases outcome with
      | error e => exact .whole short rfl
      | ok x => exact (rest x).cut t' short
    | refused next fault taken earlier =>
      cases fault
      cases outcome with
      | error e => exact .refused next rfl taken earlier
      | ok x =>
        have onward := (rest x).onward t'
        have long := (List.getElem?_eq_some_iff.mp next).1
        obtain ⟨added, more⟩ := onward.events
        refine .refused ?_ rfl ?_ (earlier.trans onward)
        · change (exec (f x) t').2.events[n]? = some _
          rw [← more, List.getElem?_append_left long]
          exact next
        · change last.events = (exec (f x) t').2.events.take n
          rw [← more, List.take_append_of_le_length (Nat.le_of_lt long)]
          exact taken

variable {host : TurnHost (σ × HostLog)} {sink : Nat → Bool}

section Emit
variable (accepts : ∀ i, host.accepts i = true) (before : ∀ i < n, sink i = true) (refused : sink n = false)
include accepts before refused

/-- The one place where the sinks differ. -/
theorem emit (e : Event) : CutsOff n (emit host e) (TurnAction.emit { host with accepts := sink } e) := by
  have full (t : TurnRun (σ × HostLog)) := exec_emit_taken (accepts t.events.length) e
  constructor
  · intro t
    rw [full]
    exact ⟨List.prefix_append _ _, List.prefix_rfl⟩
  · intro t room
    rw [full]
    rcases Nat.eq_or_lt_of_le room with last | early
    · have lost : { host with accepts := sink }.accepts t.events.length = false := by rw [last]; exact refused
      rw [exec_emit_refused lost]
      refine .refused (e := e) ?_ rfl ?_ ⟨List.prefix_append _ _, List.prefix_rfl⟩
      · simp [← last]
      · simp [← last]
    · have taken : { host with accepts := sink }.accepts t.events.length = true := before _ early
      rw [exec_emit_taken taken]
      refine .whole ?_ rfl
      rw [List.length_append]
      exact early

theorem drain (pieces : Reply) :
    CutsOff n (CodeAgent.drain (fun piece => TurnAction.emit host (.chunk piece)) pieces)
      (CodeAgent.drain (fun piece => TurnAction.emit { host with accepts := sink } (.chunk piece)) pieces) := by
  induction pieces with
  | nil => exact pure []
  | cons piece pieces ih =>
    cases piece with
    | error e => exact throw e
    | ok piece =>
      rw [CodeAgent.drain, CodeAgent.drain]
      split
      · exact ih
      · exact .bind (emit accepts before refused _) fun _ => .bind ih fun _ => pure _

theorem settle (settings : Settings) (id : String) (call : ToolCall) (outcome : Except Failure String) :
    CutsOff n (settle host settings id call outcome)
      (TurnAction.settle { host with accepts := sink } settings id call outcome) := by
  cases outcome with
  | ok result =>
    refine .bind (emit accepts before refused _) fun _ => ?_
    split
    · exact pure _
    · exact throw _
  | error e =>
    cases e with
    | fault f =>
      rw [TurnAction.settle, TurnAction.settle]
      split
      · exact .bind (throw _) fun _ => .bind (emit accepts before refused _) fun _ => pure _
      · exact .bind (emit accepts before refused _) fun _ => pure _
    | _ => exact throw _

variable (notes : host.Notes)
include notes

theorem ask (q : Query) : CutsOff n (ask host q) (TurnAction.ask { host with accepts := sink } q) := by
  have sent : CutsOff n (modify fun run => { run with requests := run.requests ++ [q] } :
      TurnAction (σ × HostLog) Unit) (modify fun run => { run with requests := run.requests ++ [q] }) :=
    ⟨fun _ => ⟨List.prefix_rfl, List.prefix_rfl⟩, fun _ room => .whole room rfl⟩
  refine .bind sent fun _ => .bind (onWorld fun w => ?_) fun reply =>
    .bind (drain accepts before refused reply) fun _ => pure _
  simp only [notes.reply, List.prefix_rfl]

theorem runCall (settings : Settings) (call : ToolCall) : CutsOff n (runCall host settings call)
    (TurnAction.runCall { host with accepts := sink } settings call) := by
  refine .bind (onWorld fun w => ?_) fun id => .bind (emit accepts before refused _) fun _ =>
    .bind (onWorld fun w => ?_) fun outcome => settle accepts before refused _ _ _ _
  · simp only [notes.newIdentifier, List.prefix_rfl]
  · rw [notes.execute]
    exact List.prefix_append _ _

theorem runCalls (settings : Settings) (calls : List ToolCall) : CutsOff n (runCalls host settings calls)
    (TurnAction.runCalls { host with accepts := sink } settings calls) := by
  induction calls with
  | nil => exact pure []
  | cons call calls ih =>
    exact .bind (runCall accepts before refused notes settings call) fun _ => .bind ih fun _ => pure _

theorem rounds (r : TurnRequest) (left iterations : Nat) (finalText : String) (c : Conversation) :
    CutsOff n (rounds host r left iterations finalText c)
      (TurnAction.rounds { host with accepts := sink } r left iterations finalText c) := by
  induction left generalizing iterations finalText c with
  | zero => exact pure _
  | succ left ih =>
    refine .bind (enter _) fun _ => .bind (ask accepts before refused notes _) fun text =>
      .bind (enter _) fun _ => ?_
    split
    · refine .bind (enter _) fun _ => ?_
      split
      · exact pure _
      · exact .bind (enter _) fun _ => ih _ _ _
    · exact .bind (enter _) fun _ => .bind (runCalls accepts before refused notes _ _) fun _ =>
        .bind (enter _) fun _ => ih _ _ _

theorem turn (r : TurnRequest) (messages : List Message) :
    CutsOff n (r.turn host messages) (r.turn { host with accepts := sink } messages) :=
  .bind (rounds accepts before refused notes r _ _ _ _) fun _ => .bind (enter .done) fun _ => pure _

end Emit
end CutsOff
end TurnAction

namespace TurnHost

/-- The rounds that a host plays before the one whose reply is broken off are played with a log too. -/
theorem logged_round_of_played {change : Nat → Reply → Reply} {host : TurnHost σ} {settings : Settings}
    {q : Query} {world next : σ} {x : Round} {log : HostLog} (played : host.round settings q world = (x, next))
    (kept : ∀ reply, change log.replies reply = reply) :
    (host.logged change).round settings q (world, log) =
      (x, next, ⟨log.replies + 1, log.executed ++ x.ran.map CallRun.call⟩) := by
  rw [logged_round change host kept, played]

/-- The reply of a round is the one that the host makes. -/
theorem reply_eq_of_round {host : TurnHost σ} {settings : Settings} {q : Query} {world next : σ} {x : Round}
    (played : host.round settings q world = (x, next)) : ((host.reply q).run world).1 = x.reply := by
  unfold round at played
  dsimp only at played
  split at played
  · obtain ⟨rfl, -⟩ := Prod.mk.inj played
    rfl
  · obtain ⟨rfl, -⟩ := Prod.mk.inj played
    rfl

/-- A model that fails in the course of a reply, after the first pieces of it. -/
def failingAt (k pieces : Nat) (e : Failure) (n : Nat) (reply : Reply) : Reply :=
  if n = k then reply.take pieces ++ [.error e] else reply

end TurnHost

namespace Reply

theorem failure?_append {a : Reply} (b : Reply) (sound : failure? a = none) :
    failure? (a ++ b) = failure? b := by
  induction a with
  | nil => rfl
  | cons piece rest ih =>
    cases piece with
    | error e => simp [failure?] at sound
    | ok piece => exact ih sound

theorem delivered_append {a : Reply} (b : Reply) (sound : failure? a = none) :
    delivered (a ++ b) = delivered a ++ delivered b := by
  induction a with
  | nil => rfl
  | cons piece rest ih =>
    cases piece with
    | error e => simp [failure?] at sound
    | ok piece =>
      simp only [List.cons_append, delivered, ih sound]
      split <;> rfl

end Reply

namespace TurnRequest
variable {r : TurnRequest} {host : TurnHost σ}

/-- How a course begins: with a round that ends it, or with one that is followed by the others. -/
theorem Course.first {left iterations : Nat} {finalText : String} {c : Conversation} {ys : List Round}
    {outcome : Except Failure TurnResult} (course : r.Course (left + 1) iterations finalText c ys outcome) :
    ∃ y zs, ys = y :: zs ∧ y.asked = r.query c ∧
      (∀ e, y.failure? r.settings = some e → zs = [] ∧ outcome = .error e) ∧
      (zs ≠ [] → y.failure? r.settings = none ∧ y.completes r.settings = false) ∧
      (y.failure? r.settings = none → y.completes r.settings = false →
        r.Course left (iterations + 1) y.text
          (c.extend (if left = 0 then y.closing r.settings else y.exchange r.settings)) zs outcome) := by
  cases course with
  | broken asked failed => exact ⟨_, _, rfl, asked, by simp [failed], by simp, by simp [failed]⟩
  | completed asked unbroken done => exact ⟨_, _, rfl, asked, by simp [unbroken], by simp, by simp [done]⟩
  | onward asked unbroken undone rest =>
    exact ⟨_, _, rfl, asked, by simp [unbroken], fun _ => ⟨unbroken, undone⟩, fun _ _ => rest⟩

/-- A turn whose model fails in the middle of a reply goes through the rounds before it, and ends there. -/
theorem Course.breaks_off {left iterations : Nat} {finalText : String} {c : Conversation}
    {before after xs ys : List Round} {x : Round} {pieces : Nat} {e : Failure}
    {outcome outcome' : Except Failure TurnResult} (split : xs = before ++ x :: after)
    (unbroken : Reply.failure? (x.reply.take pieces) = none)
    (course : r.Course left iterations finalText c xs outcome)
    (course' : r.Course left iterations finalText c ys outcome') {s stop : σ} {log : HostLog}
    {stop' : σ × HostLog} {k : Nat} (place : k = log.replies + before.length)
    (plays : host.Plays r.settings s xs stop)
    (plays' : (host.logged (TurnHost.failingAt k pieces e)).Plays r.settings (s, log) ys stop') :
    outcome' = .error e ∧ ys = before ++ [⟨x.asked, x.reply.take pieces ++ [.error e], []⟩] ∧
      stop'.2.executed = log.executed ++ before.flatMap fun y => y.ran.map CallRun.call := by
  induction before generalizing left iterations finalText c xs ys s log with
  | nil =>
    subst split
    obtain ⟨left, rfl⟩ : ∃ n, left = n + 1 := Nat.exists_eq_succ_of_ne_zero (by
      rintro rfl
      cases course)
    obtain ⟨_, _, same, asked, -⟩ := course.first
    cases same
    obtain ⟨y, zs, rfl, asked', ends, -, -⟩ := course'.first
    obtain ⟨next, played, -⟩ := plays
    obtain ⟨next', played', rest'⟩ := plays'
    -- The reply is the one of the undisturbed turn, up to its failure.
    have replied : TurnHost.failingAt k pieces e log.replies ((host.reply (r.query c)).run s).1 =
        x.reply.take pieces ++ [.error e] := by
      rw [← asked, TurnHost.reply_eq_of_round played]
      exact if_pos place.symm
    have broken : Reply.failure? (x.reply.take pieces ++ [.error e]) = some e :=
      Reply.failure?_append _ unbroken
    rw [asked', TurnHost.logged_round_broken _ _ (replied ▸ broken), replied] at played'
    obtain ⟨rfl, rfl⟩ := Prod.mk.inj played'
    obtain ⟨rfl, ended⟩ := ends e (by simp [Round.failure?, broken])
    obtain rfl : stop' = _ := rest'
    exact ⟨ended, by rw [asked]; rfl, by simp⟩
  | cons w before ih =>
    subst split
    obtain ⟨left, rfl⟩ : ∃ n, left = n + 1 := Nat.exists_eq_succ_of_ne_zero (by
      rintro rfl
      cases course)
    obtain ⟨_, _, same, asked, -, onward, more⟩ := course.first
    cases same
    obtain ⟨y, zs, rfl, asked', -, -, more'⟩ := course'.first
    obtain ⟨next, played, rest⟩ := plays
    obtain ⟨next', played', rest'⟩ := plays'
    rw [asked', ← asked, TurnHost.logged_round_of_played played fun reply => by
      rw [TurnHost.failingAt, if_neg]
      rw [place, List.length_cons]
      omega] at played'
    obtain ⟨rfl, rfl⟩ := Prod.mk.inj played'
    obtain ⟨sound, undone⟩ := onward (by simp)
    have place' : k = log.replies + 1 + before.length := by
      rw [place, List.length_cons]
      omega
    obtain ⟨ended, rfl, executed⟩ := ih rfl (more sound undone) (more' sound undone) place' rest rest'
    refine ⟨ended, rfl, ?_⟩
    rw [executed, List.flatMap_cons, List.append_assoc]

/-- The log does not show in a turn: its rounds are those of the host. -/
theorem run_logged (r : TurnRequest) (messages : List Message) (world : σ)
    (accepts : ∀ i, host.accepts i = true) {rounds : List Round}
    (course : r.Course r.settings.maxIterations.toNat 0 "" (.start (r.prompt messages) messages)
      rounds (r.run host messages world).1)
    (plays : host.Plays r.settings world rounds (r.run host messages world).2.world) :
    (r.run (host.logged fun _ reply => reply) messages (world, {})).2.events =
        rounds.flatMap Round.events ∧
      (r.run (host.logged fun _ reply => reply) messages (world, {})).2.world.2.executed =
        rounds.flatMap fun x => x.ran.map CallRun.call := by
  obtain ⟨rounds', course', plays', -, events'⟩ :=
    r.exists_course (host.logged fun _ reply => reply) messages (world, {}) accepts
  have sound (a b : Reply) (same : a = b) : a.Alike b := same ▸ .refl a
  obtain ⟨-, same, -⟩ := Course.agree host.follows_logged sound course course' rfl plays plays'
  obtain rfl : rounds = rounds' := by
    rw [← List.forall₂_eq_eq_eq]
    exact same.imp fun x y same => same.eq
  exact ⟨events', by simpa using plays'.executed_eq⟩

/-- How a turn with some rounds ends if it is broken off. -/
structure AbortsCleanly (r : TurnRequest) (host : TurnHost σ) (messages : List Message) (world : σ)
    (rounds : List Round) : Prop where
  plays : host.Plays r.settings world rounds (r.run host messages world).2.world
  events_eq : (r.run host messages world).2.events = rounds.flatMap Round.events
  /-- If the sink refuses an event, the turn fails for that. Its events are those before, and exactly the
  calls that these start were executed. -/
  refused : ∀ n e, (r.run host messages world).2.events[n]? = some e →
    ∀ sink : Nat → Bool, (∀ i < n, sink i = true) → sink n = false →
      let cut := r.run { host.logged fun _ reply => reply with accepts := sink } messages (world, {})
      cut.1 = .error (.fault (Fault.emissionFailed e.type)) ∧
        cut.2.events = (r.run host messages world).2.events.take n ∧
        cut.2.world.2.executed <+: (rounds.flatMap fun x => x.ran.map CallRun.call) ∧
        cut.2.world.2.executed.map (fun call => (call.name, call.parameters)) =
          ((r.run host messages world).2.events.take n).filterMap Event.startedCall?
  /-- If the model fails in the middle of a reply, the turn fails for that. Its events are those up to the
  last piece that arrived, and the calls of the replies before were executed. -/
  failing : ∀ before x after, rounds = before ++ x :: after → ∀ pieces e,
    Reply.failure? (x.reply.take pieces) = none →
      let cut := r.run (host.logged (TurnHost.failingAt before.length pieces e)) messages (world, {})
      cut.1 = .error e ∧
        cut.2.events = before.flatMap Round.events ++ (Reply.delivered (x.reply.take pieces)).map .chunk ∧
        cut.2.events <+: (r.run host messages world).2.events ∧
        cut.2.world.2.executed = before.flatMap fun y => y.ran.map CallRun.call

/-- A turn that is broken off did what the undisturbed turn does until then, and nothing more. -/
theorem run_aborts_cleanly (r : TurnRequest) (host : TurnHost σ) (messages : List Message) (world : σ)
    (accepts : ∀ i, host.accepts i = true) : ∃ rounds, r.AbortsCleanly host messages world rounds := by
  obtain ⟨rounds, course, plays, -, events⟩ := r.exists_course host messages world accepts
  obtain ⟨logged_events, logged_executed⟩ := r.run_logged messages world accepts course plays
  refine ⟨rounds, plays, events, ?refused, ?failing⟩
  case refused =>
    intro n e next sink before refused cut
    rw [events, ← logged_events] at next ⊢
    rw [← logged_executed]
    have notes := host.notes_logged fun _ reply => reply
    have accounted : cut.2.Accounted := r.run_accounted (notes.withSink sink) messages world
    have off := TurnAction.CutsOff.turn accepts before refused notes r messages
    cases off.cut { world := (world, {}) } (Nat.zero_le n) with
    | whole short =>
      have long := (List.getElem?_eq_some_iff.mp next).1
      exact absurd long (Nat.not_lt.mpr short)
    | @refused e' next' fault taken earlier =>
      obtain rfl : e = e' := Option.some.inj (next.symm.trans next')
      refine ⟨fault, taken, earlier.executed, ?_⟩
      rw [accounted]
      exact congrArg _ taken
  case failing =>
    intro before x after split pieces e unbroken cut
    obtain ⟨ys, course', plays', -, events'⟩ := r.exists_course
      (host.logged (TurnHost.failingAt before.length pieces e)) messages (world, {}) accepts
    obtain ⟨ended, rfl, executed⟩ :=
      Course.breaks_off split unbroken course course' (by simp) plays plays'
    have arrived : cut.2.events = before.flatMap Round.events ++
        (Reply.delivered (x.reply.take pieces)).map .chunk := by
      rw [events']
      simp [Round.events, Reply.delivered_append _ unbroken, Reply.delivered]
    refine ⟨ended, arrived, ?_, by simpa using executed⟩
    have whole := Reply.delivered_append (x.reply.drop pieces) unbroken
    rw [List.take_append_drop] at whole
    rw [arrived, events, split, List.flatMap_append, List.flatMap_cons, Round.events, whole,
      List.map_append]
    simp only [List.append_assoc]
    exact (List.prefix_append_right_inj _).mpr (List.prefix_append _ _)

/-- A turn with a reply that calls a tool has an event of each kind to be broken off at. -/
theorem run_aborts_cleanly_steady :
    let r : TurnRequest := { settings := { maxIterations := 1 }, model := "m", osName := "linux" }
    let host := TurnHost.steady "<todo_list/>" "[]"
    (∀ i, host.accepts i = true) ∧
      (r.run host [] ()).2.events.map Event.type =
        ["chunk", "agent-tool-start", "agent-tool-res"] ∧
      ∃ rounds, r.AbortsCleanly host [] () rounds :=
  ⟨fun _ => rfl, by decide +kernel, run_aborts_cleanly _ _ [] () fun _ => rfl⟩

end TurnRequest
end CodeAgent
