import Mathlib.Data.List.Forall2
import CodeAgent.Proofs.Agent.TurnOutcome

/-! Hosts that no turn can tell apart: from related worlds their replies are alike and their tools come to
the same, and so do their turns. -/
namespace CodeAgent
variable {σ τ : Type}

namespace Reply

/-- Streams that break off by the same failure, or deliver the same pieces of text. -/
structure Alike (a b : Reply) : Prop where
  failure?_eq : failure? a = failure? b
  delivered_eq : failure? a = none → delivered a = delivered b

theorem Alike.refl (a : Reply) : Alike a a := ⟨rfl, fun _ => rfl⟩

end Reply

/-- Rounds with the same request and the same calls, and with streams in some relation. -/
structure Round.Matches (alike : Reply → Reply → Prop) (x y : Round) : Prop where
  asked_eq : x.asked = y.asked
  reply : alike x.reply y.reply
  ran_eq : x.ran = y.ran

namespace Round.Matches

theorem eq {x y : Round} (same : x.Matches Eq y) : x = y := by
  obtain ⟨asked, reply, ran⟩ := x
  obtain ⟨rfl, rfl, rfl⟩ := same
  rfl

variable {alike : Reply → Reply → Prop} {x y : Round} (same : x.Matches alike y)
  (sound : ∀ a b, alike a b → a.Alike b)
include same sound

theorem failure?_eq (settings : Settings) : x.failure? settings = y.failure? settings := by
  rw [failure?, failure?, (sound _ _ same.reply).failure?_eq, same.ran_eq]

variable {settings : Settings} (unbroken : x.failure? settings = none)
include unbroken

theorem text_eq : x.text = y.text := by
  have streamed := (Option.or_eq_none_iff.mp unbroken).1
  rw [text, text, (sound _ _ same.reply).delivered_eq streamed]

theorem events_eq : x.events = y.events := by
  have streamed := (Option.or_eq_none_iff.mp unbroken).1
  rw [events, events, (sound _ _ same.reply).delivered_eq streamed, same.ran_eq]

theorem completes_eq : x.completes settings = y.completes settings := by
  rw [completes, completes, calls, calls, same.text_eq sound unbroken]

theorem answer_eq : x.answer settings = y.answer settings := by
  rw [answer, answer, calls, calls, same.text_eq sound unbroken, same.ran_eq]

theorem closing_eq : x.closing settings = y.closing settings := by
  rw [closing, closing, same.answer_eq sound unbroken, calls, calls, same.text_eq sound unbroken]

theorem exchange_eq : x.exchange settings = y.exchange settings := by
  rw [exchange, exchange, same.answer_eq sound unbroken, same.text_eq sound unbroken]

end Round.Matches

namespace TurnHost

/-- From related worlds, two hosts answer alike and get into related worlds. -/
structure Follows (alike : Reply → Reply → Prop) (related : σ → τ → Prop) (host : TurnHost σ)
    (other : TurnHost τ) : Prop where
  reply : ∀ q {s t}, related s t →
    alike ((host.reply q).run s).1 ((other.reply q).run t).1 ∧
      related ((host.reply q).run s).2 ((other.reply q).run t).2
  execute : ∀ call {s t}, related s t →
    ((host.execute call).run.run s).1 = ((other.execute call).run.run t).1 ∧
      related ((host.execute call).run.run s).2 ((other.execute call).run.run t).2
  newIdentifier : ∀ {s t}, related s t →
    (host.newIdentifier.run s).1 = (other.newIdentifier.run t).1 ∧
      related (host.newIdentifier.run s).2 (other.newIdentifier.run t).2

namespace Follows
variable {alike : Reply → Reply → Prop} {related : σ → τ → Prop} {host : TurnHost σ}
  {other : TurnHost τ} (follows : host.Follows alike related other)
include follows

theorem runCall (call : ToolCall) {s : σ} {t : τ} (start : related s t) :
    (host.runCall call s).1 = (other.runCall call t).1 ∧
      related (host.runCall call s).2 (other.runCall call t).2 := by
  obtain ⟨id_eq, named⟩ := follows.newIdentifier start
  obtain ⟨outcome_eq, done⟩ := follows.execute call named
  exact ⟨congrArg₂ (CallRun.mk · call ·) id_eq outcome_eq, done⟩

theorem runCalls (settings : Settings) (calls : List ToolCall) {s : σ} {t : τ} (start : related s t) :
    (host.runCalls settings calls s).1 = (other.runCalls settings calls t).1 ∧
      related (host.runCalls settings calls s).2 (other.runCalls settings calls t).2 := by
  induction calls generalizing s t with
  | nil => exact ⟨rfl, start⟩
  | cons call calls ih =>
    obtain ⟨run_eq, next⟩ := follows.runCall call start
    simp only [TurnHost.runCalls, run_eq]
    cases (other.runCall call t).1.failure? settings with
    | some e => exact ⟨rfl, next⟩
    | none =>
      obtain ⟨rest_eq, last⟩ := ih next
      exact ⟨congrArg _ rest_eq, last⟩

variable (sound : ∀ a b, alike a b → a.Alike b)
include sound

theorem round (settings : Settings) (q : Query) {s : σ} {t : τ} (start : related s t) :
    (host.round settings q s).1.Matches alike (other.round settings q t).1 ∧
      related (host.round settings q s).2 (other.round settings q t).2 := by
  obtain ⟨streams, next⟩ := follows.reply q start
  have broken := (sound _ _ streams).failure?_eq
  simp only [TurnHost.round, broken]
  cases failed : Reply.failure? ((other.reply q).run t).1 with
  | some e => exact ⟨⟨rfl, streams, rfl⟩, next⟩
  | none =>
    rw [(sound _ _ streams).delivered_eq (broken.trans failed)]
    obtain ⟨ran_eq, last⟩ := follows.runCalls settings _ next
    exact ⟨⟨rfl, streams, ran_eq⟩, last⟩

end Follows
end TurnHost

namespace TurnRequest
variable {alike : Reply → Reply → Prop} {related : σ → τ → Prop} {host : TurnHost σ}
  {other : TurnHost τ} {r : TurnRequest}

/-- Two courses of a turn, played by hosts of which one follows the other, match round by round and come
to the same. -/
theorem Course.agree (follows : host.Follows alike related other) (sound : ∀ a b, alike a b → a.Alike b)
    {left iterations : Nat} {finalText : String} {c : Conversation} {xs ys : List Round}
    {outcome outcome' : Except Failure TurnResult}
    (course : r.Course left iterations finalText c xs outcome)
    (course' : r.Course left iterations finalText c ys outcome') {s after : σ} {t after' : τ}
    (start : related s t) (plays : host.Plays r.settings s xs after)
    (plays' : other.Plays r.settings t ys after') :
    outcome = outcome' ∧ List.Forall₂ (Round.Matches alike) xs ys ∧ related after after' := by
  -- The first rounds match, since both are asked with the same conversation.
  have first {x y : Round} {next : σ} {next' : τ} {s : σ} {t : τ} {c : Conversation} (start : related s t)
      (asked : x.asked = r.query c) (asked' : y.asked = r.query c)
      (played : host.round r.settings x.asked s = (x, next))
      (played' : other.round r.settings y.asked t = (y, next')) :
      x.Matches alike y ∧ related next next' := by
    have both := follows.round sound r.settings (r.query c) start
    rw [asked] at played
    rw [asked'] at played'
    rwa [played, played'] at both
  induction course generalizing ys outcome' s t with
  | exhausted =>
    cases course'
    obtain rfl : after = s := plays
    obtain rfl : after' = t := plays'
    exact ⟨rfl, .nil, start⟩
  | broken asked failed =>
    obtain ⟨next, played, rfl⟩ := plays
    cases course' with
    | broken asked' failed' =>
      obtain ⟨next', played', rfl⟩ := plays'
      obtain ⟨same, ended⟩ := first start asked asked' played played'
      rw [same.failure?_eq sound, failed', Option.some.injEq] at failed
      exact ⟨by rw [failed], .cons same .nil, ended⟩
    | completed asked' failed' =>
      obtain ⟨next', played', -⟩ := plays'
      rw [(first start asked asked' played played').1.failure?_eq sound, failed'] at failed
      contradiction
    | onward asked' failed' =>
      obtain ⟨next', played', -⟩ := plays'
      rw [(first start asked asked' played played').1.failure?_eq sound, failed'] at failed
      contradiction
  | completed asked unbroken done =>
    obtain ⟨next, played, rfl⟩ := plays
    cases course' with
    | broken asked' failed' =>
      obtain ⟨next', played', -⟩ := plays'
      rw [(first start asked asked' played played').1.failure?_eq sound, failed'] at unbroken
      contradiction
    | completed asked' =>
      obtain ⟨next', played', rfl⟩ := plays'
      obtain ⟨same, ended⟩ := first start asked asked' played played'
      refine ⟨?_, .cons same .nil, ended⟩
      rw [same.text_eq sound unbroken, same.closing_eq sound unbroken]
    | onward asked' _ undone =>
      obtain ⟨next', played', -⟩ := plays'
      rw [(first start asked asked' played played').1.completes_eq sound unbroken, undone] at done
      contradiction
  | onward asked unbroken undone _ ih =>
    obtain ⟨next, played, rest⟩ := plays
    cases course' with
    | broken asked' failed' =>
      obtain ⟨next', played', -⟩ := plays'
      rw [(first start asked asked' played played').1.failure?_eq sound, failed'] at unbroken
      contradiction
    | completed asked' _ done =>
      obtain ⟨next', played', -⟩ := plays'
      rw [(first start asked asked' played played').1.completes_eq sound unbroken, done] at undone
      contradiction
    | onward asked' _ _ course' =>
      obtain ⟨next', played', rest'⟩ := plays'
      obtain ⟨same, between⟩ := first start asked asked' played played'
      rw [← same.text_eq sound unbroken, ← same.closing_eq sound unbroken,
        ← same.exchange_eq sound unbroken] at course'
      obtain ⟨outcome_eq, others, ended⟩ := ih course' between rest rest'
      exact ⟨outcome_eq, .cons same others, ended⟩

end TurnRequest
end CodeAgent
