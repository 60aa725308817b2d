import CodeAgent.Proofs.Agent.AlikeHosts

/-! Hosts that keep a log of the calls that they execute. Whatever the sink takes, the calls in the log are
those whose start it took. -/
namespace CodeAgent
variable {σ α β : Type}

/-- What was asked of a host: how many replies, and the calls that were executed, in order. -/
structure HostLog where
  replies : Nat := 0
  executed : List ToolCall := []

namespace TurnHost

/-- A host that keeps a log, and whose replies, counted from zero, are changed on the way. -/
def logged (change : Nat → Reply → Reply) (host : TurnHost σ) : TurnHost (σ × HostLog) where
  reply q := do
    let (world, log) ← get
    let (reply, world) := (host.reply q).run world
    set (world, { log with replies := log.replies + 1 })
    return change log.replies reply
  execute call := ExceptT.mk do
    let (world, log) ← get
    let (outcome, world) := (host.execute call).run.run world
    set (world, { log with executed := log.executed ++ [call] })
    return outcome
  newIdentifier := do
    let (world, log) ← get
    let (id, world) := host.newIdentifier.run world
    set (world, log)
    return id
  accepts := host.accepts

variable (change : Nat → Reply → Reply) (host : TurnHost σ)

/-- A host whose replies stay as they are is followed by its log. -/
theorem follows_logged : host.Follows Eq (fun world (noted : σ × HostLog) => noted.1 = world)
    (host.logged fun _ reply => reply) where
  reply := by
    rintro q world ⟨_, log⟩ rfl
    exact ⟨rfl, rfl⟩
  execute := by
    rintro call world ⟨_, log⟩ rfl
    exact ⟨rfl, rfl⟩
  newIdentifier := by
    rintro world ⟨_, log⟩ rfl
    exact ⟨rfl, rfl⟩

theorem logged_runCall (call : ToolCall) (world : σ) (log : HostLog) :
    (host.logged change).runCall call (world, log) = ((host.runCall call world).1,
      ((host.runCall call world).2, { log with executed := log.executed ++ [call] })) := rfl

theorem logged_runCalls (settings : Settings) (calls : List ToolCall) (world : σ) (log : HostLog) :
    (host.logged change).runCalls settings calls (world, log) = ((host.runCalls settings calls world).1,
      ((host.runCalls settings calls world).2, { log with
        executed := log.executed ++ (host.runCalls settings calls world).1.map CallRun.call })) := by
  induction calls generalizing world log with
  | nil => simp [runCalls]
  | cons call calls ih =>
    have same : (host.runCall call world).1.call = call := rfl
    simp only [runCalls, logged_runCall]
    cases (host.runCall call world).1.failure? settings with
    | some e => simp [same]
    | none => simp [ih, same]

/-- A reply that stays as it is makes the same round, and its calls are noted. -/
theorem logged_round {settings : Settings} {q : Query} {world : σ} {log : HostLog}
    (kept : ∀ reply, change log.replies reply = reply) :
    (host.logged change).round settings q (world, log) = ((host.round settings q world).1,
      ((host.round settings q world).2, {
        replies := log.replies + 1
        executed := log.executed ++ (host.round settings q world).1.ran.map CallRun.call })) := by
  have answered : ((host.logged change).reply q).run (world, log) = (((host.reply q).run world).1,
      (((host.reply q).run world).2, { log with replies := log.replies + 1 })) := by
    change (change log.replies _, _) = _
    rw [kept]
    rfl
  unfold round
  rw [answered]
  dsimp only
  cases Reply.failure? ((host.reply q).run world).1 with
  | some e => simp
  | none => simp [logged_runCalls]

/-- A reply that is broken off by a change ends its round, and no call of it is executed. -/
theorem logged_round_broken {settings : Settings} {q : Query} {world : σ} {log : HostLog} {e : Failure}
    (broken : Reply.failure? (change log.replies ((host.reply q).run world).1) = some e) :
    (host.logged change).round settings q (world, log) =
      (⟨q, change log.replies ((host.reply q).run world).1, []⟩,
        (((host.reply q).run world).2, { log with replies := log.replies + 1 })) := by
  have answered : ((host.logged change).reply q).run (world, log) =
      (change log.replies ((host.reply q).run world).1,
        (((host.reply q).run world).2, { log with replies := log.replies + 1 })) := rfl
  unfold round
  rw [answered]
  dsimp only
  rw [broken]

/-- The log of some rounds holds the calls that were run in them. -/
theorem Plays.executed_eq {host : TurnHost σ} {settings : Settings} {rounds : List Round}
    {start after : σ × HostLog}
    (plays : (host.logged fun _ reply => reply).Plays settings start rounds after) :
    after.2.executed = start.2.executed ++ rounds.flatMap fun x => x.ran.map CallRun.call := by
  induction rounds generalizing start with
  | nil =>
    obtain rfl : after = start := plays
    simp
  | cons x xs ih =>
    obtain ⟨next, played, rest⟩ := plays
    rw [logged_round _ _ fun _ => rfl] at played
    obtain ⟨ran, rfl⟩ := Prod.mk.inj played
    rw [ih rest, List.flatMap_cons, ← List.append_assoc]
    dsimp only
    rw [ran]

end TurnHost

/-- A host that notes each call that it executes, and nothing else. -/
structure TurnHost.Notes (host : TurnHost (σ × HostLog)) : Prop where
  reply : ∀ q w, ((host.reply q).run w).2.2.executed = w.2.executed
  execute : ∀ call w, ((host.execute call).run.run w).2.2.executed = w.2.executed ++ [call]
  newIdentifier : ∀ w, (host.newIdentifier.run w).2.2.executed = w.2.executed

theorem TurnHost.notes_logged (change : Nat → Reply → Reply) (host : TurnHost σ) :
    (host.logged change).Notes :=
  ⟨fun _ _ => rfl, fun _ _ => rfl, fun _ => rfl⟩

/-- Whatever its sink takes, a host notes the same. -/
theorem TurnHost.Notes.withSink {host : TurnHost (σ × HostLog)} (notes : host.Notes) (sink : Nat → Bool) :
    Notes { host with accepts := sink } :=
  ⟨notes.reply, notes.execute, notes.newIdentifier⟩

/-- The name and the parameters of the call that an event starts. -/
def Event.startedCall? : Event → Option (String × Json.Fields)
  | toolStart _ name parameters => some (name, parameters)
  | _ => none

/-- The calls that were executed are those that the events start. -/
def TurnRun.Accounted (t : TurnRun (σ × HostLog)) : Prop :=
  t.world.2.executed.map (fun call => (call.name, call.parameters)) =
    t.events.filterMap Event.startedCall?

namespace TurnAction

theorem exec_emit_taken {host : TurnHost σ} {t : TurnRun σ} (taken : host.accepts t.events.length = true)
    (e : Event) : exec (emit host e) t = (.ok (), { t with events := t.events ++ [e] }) := by
  have step : exec (emit host e) t = exec (if host.accepts t.events.length then
      set { t with events := t.events ++ [e] }
      else throw (.fault (Fault.emissionFailed e.type))) t := rfl
  rw [step, if_pos taken]
  rfl

/-- An event that the sink refuses ends the turn. -/
theorem exec_emit_refused {host : TurnHost σ} {t : TurnRun σ}
    (refused : host.accepts t.events.length = false) (e : Event) :
    exec (emit host e) t = (.error (.fault (Fault.emissionFailed e.type)), t) := by
  have step : exec (emit host e) t = exec (if host.accepts t.events.length then
      set { t with events := t.events ++ [e] }
      else throw (.fault (Fault.emissionFailed e.type))) t := rfl
  rw [step, if_neg (by simp [refused])]
  rfl

/-- An action after which the executed calls are still those that the events start. -/
def Accounts (a : TurnAction (σ × HostLog) α) : Prop :=
  ∀ t : TurnRun (σ × HostLog), t.Accounted → (exec a t).2.Accounted

namespace Accounts
variable {host : TurnHost (σ × HostLog)}

theorem pure (x : α) : Accounts (Pure.pure x : TurnAction (σ × HostLog) α) := fun _ h => h

theorem throw (e : Failure) : Accounts (MonadExcept.throw e : TurnAction (σ × HostLog) α) :=
  fun _ h => h

theorem enter (stage : TurnStage) : Accounts (enter stage : TurnAction (σ × HostLog) Unit) :=
  fun _ h => h

theorem bind {a : TurnAction (σ × HostLog) α} {f : α → TurnAction (σ × HostLog) β}
    (first : Accounts a) (rest : ∀ x, Accounts (f x)) : Accounts (a >>= f) := by
  intro t start
  have between := first t start
  rw [exec_bind]
  generalize exec a t = made at between
  obtain ⟨outcome, t'⟩ := made
  cases outcome with
  | ok x => exact rest x t' between
  | error e => exact between

theorem emit {e : Event} (other : e.startedCall? = none) : Accounts (emit host e) := by
  intro t start
  cases taken : host.accepts t.events.length with
  | true =>
    rw [exec_emit_taken taken]
    simpa [TurnRun.Accounted, other] using start
  | false =>
    rw [exec_emit_refused taken]
    exact start

theorem drain (pieces : Reply) :
    Accounts (CodeAgent.drain (fun piece => TurnAction.emit host (.chunk piece)) pieces) := by
  induction pieces with
  | nil => exact pure []
  | cons piece pieces ih =>
    cases piece with
    | error e => exact throw e
    | ok piece =>
      rw [CodeAgent.drain]
      split
      · exact ih
      · exact .bind (emit rfl) fun _ => .bind ih fun _ => pure _

variable (notes : host.Notes)
include notes

theorem ask (q : Query) : Accounts (ask host q) := by
  have sent : Accounts (modify fun run => { run with requests := run.requests ++ [q] } :
      TurnAction (σ × HostLog) Unit) := fun _ h => h
  have answered : Accounts (onWorld (host.reply q)) := by
    intro t start
    have kept := notes.reply q t.world
    simpa [TurnRun.Accounted, kept] using start
  exact .bind sent fun _ => .bind answered fun reply => .bind (drain reply) fun _ => pure _

omit notes in
theorem settle (settings : Settings) (id : String) (call : ToolCall) (outcome : Except Failure String) :
    Accounts (settle host settings id call outcome) := by
  cases outcome with
  | ok result =>
    refine .bind (emit rfl) fun _ => ?_
    split
    · exact pure _
    · exact throw _
  | error e =>
    cases e with
    | fault f =>
      rw [TurnAction.settle]
      split
      · exact .bind (throw _) fun _ => .bind (emit rfl) fun _ => pure _
      · exact .bind (emit rfl) fun _ => pure _
    | _ => exact throw _

/-- A call is executed exactly if the sink takes its start. -/
theorem runCall (settings : Settings) (call : ToolCall) : Accounts (runCall host settings call) := by
  intro t start
  have named := notes.newIdentifier t.world
  unfold TurnAction.runCall
  rw [exec_bind_ok (exec_onWorld host.newIdentifier t)]
  cases taken : host.accepts ({ t with world := (host.newIdentifier.run t.world).2 } :
      TurnRun _).events.length with
  | true =>
    rw [exec_bind_ok (exec_emit_taken taken _), exec_bind_ok (exec_onWorld _ _)]
    refine settle settings _ call _ _ ?_
    have noted := notes.execute call (host.newIdentifier.run t.world).2
    simpa [TurnRun.Accounted, noted, named, Event.startedCall?] using start
  | false =>
    rw [exec_bind, exec_emit_refused taken]
    simpa [TurnRun.Accounted, named] using start

theorem runCalls (settings : Settings) (calls : List ToolCall) :
    Accounts (runCalls host settings calls) := by
  induction calls with
  | nil => exact pure []
  | cons call calls ih =>
    exact .bind (runCall notes settings call) fun _ => .bind ih fun _ => pure _

theorem rounds (r : TurnRequest) (left iterations : Nat) (finalText : String) (c : Conversation) :
    Accounts (rounds host r left iterations finalText c) := by
  induction left generalizing iterations finalText c with
  | zero => exact pure _
  | succ left ih =>
    refine .bind (enter _) fun _ => .bind (ask notes _) fun text => .bind (enter _) fun _ => ?_
    split
    · refine .bind (enter _) fun _ => ?_
      split
      · exact pure _
      · exact .bind (enter _) fun _ => ih _ _ _
    · exact .bind (enter _) fun _ => .bind (runCalls notes _ _) fun _ => .bind (enter _) fun _ => ih _ _ _

end Accounts
end TurnAction

/-- In every run of a turn, the calls that were executed are those whose start the sink took, in order. -/
theorem TurnRequest.run_accounted (r : TurnRequest) {host : TurnHost (σ × HostLog)} (notes : host.Notes)
    (messages : List Message) (world : σ) : (r.run host messages (world, {})).2.Accounted :=
  TurnAction.Accounts.bind (.rounds notes r _ _ _ _) (fun _ => .bind (.enter .done) fun _ => .pure _) _ rfl

end CodeAgent
