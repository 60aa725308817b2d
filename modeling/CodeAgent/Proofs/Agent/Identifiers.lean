import CodeAgent.Agent.Service
import CodeAgent.Proofs.Action
import CodeAgent.Proofs.Agent.Rounds
import CodeAgent.Proofs.Decimal.Digits

/-! No identifier is given out twice, neither in the rounds of a turn nor by the tools between them. -/
namespace CodeAgent
variable {σ α β : Type}

namespace TurnHost

/-- A host that gives out no identifier twice; a predicate tells which ones were given out. -/
structure Fresh (host : TurnHost σ) (given : σ → String → Prop) : Prop where
  new : ∀ world, ¬ given world (host.newIdentifier.run world).1
  recorded : ∀ world, given (host.newIdentifier.run world).2 (host.newIdentifier.run world).1
  kept_by_identifier : ∀ world id, given world id → given (host.newIdentifier.run world).2 id
  kept_by_reply : ∀ q world id, given world id → given ((host.reply q).run world).2 id
  kept_by_call : ∀ call world id, given world id → given ((host.execute call).run.run world).2 id

/-- Between two worlds, different new identifiers were given out, and none was taken back. -/
structure Draws (given : σ → String → Prop) (world : σ) (ids : List String) (after : σ) : Prop where
  nodup : ids.Nodup
  new : ∀ id ∈ ids, ¬ given world id
  recorded : ∀ id ∈ ids, given after id
  kept : ∀ id, given world id → given after id

namespace Draws
variable {given : σ → String → Prop} {world between after : σ} {ids more : List String}

theorem refl : Draws given world [] world :=
  ⟨.nil, by simp, by simp, fun _ h => h⟩

theorem trans (first : Draws given world ids between) (second : Draws given between more after) :
    Draws given world (ids ++ more) after := by
  refine ⟨List.nodup_append.mpr ⟨first.nodup, second.nodup, ?_⟩, ?_, ?_,
    fun id h => second.kept id (first.kept id h)⟩
  · rintro id early _ late rfl
    exact second.new id late (first.recorded id early)
  · intro id hid
    obtain early | late := List.mem_append.mp hid
    · exact first.new id early
    · exact fun given => second.new id late (first.kept id given)
  · intro id hid
    obtain early | late := List.mem_append.mp hid
    · exact second.kept id (first.recorded id early)
    · exact second.recorded id late

end Draws

namespace Fresh
variable {host : TurnHost σ} {given : σ → String → Prop} (fresh : host.Fresh given)
include fresh

theorem draws_runCall (call : ToolCall) (world : σ) :
    Draws given world [(host.runCall call world).1.id] (host.runCall call world).2 where
  nodup := List.pairwise_singleton _ _
  new := List.forall_mem_singleton.mpr (fresh.new world)
  recorded := List.forall_mem_singleton.mpr (fresh.kept_by_call call _ _ (fresh.recorded world))
  kept id h := fresh.kept_by_call call _ id (fresh.kept_by_identifier world id h)

theorem draws_runCalls (settings : Settings) (calls : List ToolCall) (world : σ) :
    Draws given world ((host.runCalls settings calls world).1.map CallRun.id)
      (host.runCalls settings calls world).2 := by
  induction calls generalizing world with
  | nil => exact .refl
  | cons call calls ih =>
    have first := fresh.draws_runCall call world
    rw [runCalls]
    cases failed : (host.runCall call world).1.failure? settings with
    | some e =>
      simp only [failed]
      exact first
    | none =>
      simp only [failed]
      exact first.trans (ih (host.runCall call world).2)

theorem draws_round (settings : Settings) (q : Query) (world : σ) :
    Draws given world ((host.round settings q world).1.ran.map CallRun.id)
      (host.round settings q world).2 := by
  have asked : Draws given world [] ((host.reply q).run world).2 :=
    ⟨.nil, by simp, by simp, fun id h => fresh.kept_by_reply q world id h⟩
  unfold round
  dsimp only
  split
  · exact asked
  · exact asked.trans (fresh.draws_runCalls settings _ _)

theorem draws_plays {settings : Settings} {world after : σ} {rounds : List Round}
    (plays : host.Plays settings world rounds after) :
    Draws given world (rounds.flatMap fun x => x.ran.map CallRun.id) after := by
  induction rounds generalizing world with
  | nil =>
    obtain rfl : after = world := plays
    exact .refl
  | cons x xs ih =>
    obtain ⟨next, played, rest⟩ := plays
    have first := fresh.draws_round settings x.asked world
    rw [played] at first
    exact first.trans (ih rest)

end Fresh

end TurnHost

/-- The number of an identifier is read off its last digits; the zeros before them do not count. -/
theorem identifier_injective {m n : Nat} (same : identifier m = identifier n) : m = n := by
  unfold identifier at same
  have digits := String.ofList_injective (String.append_right_inj _ |>.mp same)
  have value := congrArg Decimal.digitsValue digits
  simpa [Decimal.digitsValue_append, Decimal.digitsValue_natDigits] using value

namespace ToolAction

/-- An operation takes back no identifier that was given out before. -/
def CountsOn (a : ToolAction α) : Prop :=
  ∀ bench : Workbench, bench.identifiers ≤ (a.run.run bench).2.identifiers

theorem countsOn_ofExcept (e : Except Failure α) : CountsOn (ofExcept e) :=
  fun _ => Nat.le_refl _

theorem countsOn_pure (x : α) : CountsOn (pure x : ToolAction α) :=
  fun _ => Nat.le_refl _

theorem countsOn_throw (e : Failure) : CountsOn (throw e : ToolAction α) :=
  fun _ => Nat.le_refl _

theorem countsOn_get : CountsOn (get : ToolAction Workbench) :=
  fun _ => Nat.le_refl _

theorem countsOn_newIdentifier : CountsOn (Workbench.newIdentifier : ToolAction String) :=
  fun bench => Nat.le_succ bench.identifiers

theorem countsOn_onFiles (report : FileError → Failure) (a : FileAction α) :
    CountsOn (onFiles report a) :=
  fun _ => Nat.le_refl _

theorem countsOn_onIndex (report : Failure → Failure) (a : IndexAction α) :
    CountsOn (onIndex report a) :=
  fun _ => Nat.le_refl _

theorem CountsOn.bind {a : ToolAction α} {f : α → ToolAction β} (first : CountsOn a)
    (rest : ∀ x, CountsOn (f x)) : CountsOn (a >>= f) := by
  intro bench
  have before : bench.identifiers ≤ (Action.exec a bench).2.identifiers := first bench
  change bench.identifiers ≤ (Action.exec (a >>= f) bench).2.identifiers
  rw [Action.exec_bind]
  generalize Action.exec a bench = made at before ⊢
  obtain ⟨e | x, next⟩ := made
  · exact before
  · exact before.trans (rest x next)

theorem CountsOn.tryCatch {a : ToolAction α} {f : Failure → ToolAction α} (first : CountsOn a)
    (rest : ∀ e, CountsOn (f e)) : CountsOn (tryCatch a f) := by
  intro bench
  have before : bench.identifiers ≤ (Action.exec a bench).2.identifiers := first bench
  change bench.identifiers ≤ (Action.exec (MonadExcept.tryCatch a f) bench).2.identifiers
  rw [Action.exec_tryCatch]
  generalize Action.exec a bench = made at before ⊢
  obtain ⟨e | x, next⟩ := made
  · exact before.trans (rest e next)
  · exact before

end ToolAction

namespace Toolbox

variable (box : Toolbox)
open ToolAction

theorem countsOn_writeFile (path content : String) : (box.writeFile path content).CountsOn :=
  .bind (countsOn_onFiles _ _) fun _ => countsOn_pure _

theorem countsOn_saveTodos (tool : Tool) (p : Path) (items : List Json) (answer : String) :
    (saveTodos tool p items >>= fun _ => pure answer).CountsOn :=
  .bind (countsOn_onFiles _ _) fun _ => countsOn_pure _

theorem countsOn_addTodo (content : String) : (box.addTodo content).CountsOn :=
  .bind (countsOn_ofExcept _) fun _ => .bind countsOn_get fun _ =>
    .bind (countsOn_ofExcept _) fun _ => .bind countsOn_newIdentifier fun _ =>
      countsOn_saveTodos _ _ _ _

theorem countsOn_completeTodo (id : String) : (box.completeTodo id).CountsOn :=
  .bind (countsOn_ofExcept _) fun _ => .bind countsOn_get fun _ =>
    .bind (countsOn_ofExcept _) fun _ => countsOn_saveTodos _ _ _ _

theorem countsOn_indexFiles : box.indexFiles.CountsOn :=
  .bind (countsOn_ofExcept _) fun _ => .bind countsOn_get fun _ =>
    .bind (countsOn_ofExcept _) fun _ => .bind (countsOn_onIndex _ _) fun _ => countsOn_pure _

theorem countsOn_run (tool : Tool) (parameters : Parameters) : (box.run tool parameters).CountsOn := by
  refine .bind countsOn_get fun bench => ?_
  cases parameters with
  | writeFile path content => exact box.countsOn_writeFile path content
  | searchCodebase query => exact countsOn_pure _
  | todoAdd content => exact box.countsOn_addTodo content
  | todoComplete id => exact box.countsOn_completeTodo id
  | none =>
    dsimp only
    split
    · exact countsOn_ofExcept _
    · exact box.countsOn_indexFiles
  | _ => exact countsOn_ofExcept _

theorem countsOn_execute (call : ToolCall) : (box.execute call).CountsOn :=
  .bind (countsOn_ofExcept _) fun (tool, parameters) =>
    .tryCatch (box.countsOn_run tool parameters) fun _ => countsOn_throw _

end Toolbox

namespace Service

theorem exchange_bench (request : Except Failure Http.Request) (world : ServiceWorld) :
    ((exchange request).run.run world).2.bench = world.bench := by
  cases request <;> rfl

theorem reply_bench (s : Service) (q : Query) (world : ServiceWorld) :
    ((s.reply q).run world).2.bench = world.bench := by
  have sent := exchange_bench ((s.settings.backend (BackendKind.ofModel q.model)).request q true) world
  rw [reply, StateT.run_bind]
  generalize (exchange _).run.run world = answered at sent ⊢
  obtain ⟨outcome, next⟩ := answered
  cases outcome with
  | error e => exact sent
  | ok response =>
    dsimp only
    generalize (s.settings.backend (BackendKind.ofModel q.model)).readStream response = stream
    obtain ⟨pieces, ending⟩ := stream
    exact sent

theorem executeTool_bench (s : Service) (call : ToolCall) (world : ServiceWorld) :
    ((s.executeTool call).run.run world).2.bench =
      ((s.toolbox.execute call).run.run world.bench).2 := rfl

/-- What a service gave out: the identifiers with the numbers that it counted. -/
def Given (world : ServiceWorld) (id : String) : Prop :=
  ∃ n ≤ world.bench.identifiers, id = identifier n

/-- A service gives out no identifier twice. -/
theorem turnHost_fresh (s : Service) : s.turnHost.Fresh Given where
  new world := by
    rintro ⟨n, early, same⟩
    have number : world.bench.identifiers + 1 = n := identifier_injective same
    omega
  recorded world := ⟨world.bench.identifiers + 1, Nat.le_refl _, rfl⟩
  kept_by_identifier := by
    rintro world id ⟨n, early, rfl⟩
    exact ⟨n, early.trans (Nat.le_succ _), rfl⟩
  kept_by_reply := by
    rintro q world id ⟨n, early, rfl⟩
    refine ⟨n, ?_, rfl⟩
    have host : s.turnHost.reply = s.reply := rfl
    rwa [host, s.reply_bench]
  kept_by_call := by
    rintro call world id ⟨n, early, rfl⟩
    have onward := s.toolbox.countsOn_execute call world.bench
    rw [← s.executeTool_bench] at onward
    exact ⟨n, early.trans onward, rfl⟩

end Service
end CodeAgent
