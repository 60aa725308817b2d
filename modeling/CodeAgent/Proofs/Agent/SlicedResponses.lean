import CodeAgent.Proofs.Agent.AlikeHosts
import CodeAgent.Proofs.Agent.Identifiers
import CodeAgent.Proofs.Backend.StreamedReply
import CodeAgent.Proofs.Wire.LineChunks
import CodeAgent.Symbols.FileOutline

/-! Turns of a service on networks that answer the same bytes in different chunks. -/
namespace CodeAgent
open CodeAgent.Text CodeAgent.Http CodeAgent.Wire

namespace Wire

/-- A decoder at its start gives the same for the same bytes. -/
theorem outcome_eq_of_flatten (kind : BackendKind) {chunks others : List Bytes}
    (same : chunks.flatten = others.flatten) :
    kind.decoder.outcome chunks = kind.decoder.outcome others := by
  have lines (f : LineFormat) : (Decoder.lines f []).outcome chunks = (Decoder.lines f []).outcome others := by
    rw [outcome_lines_kept f (by simp), outcome_lines_kept f (by simp), same]
  cases kind with
  | openai => exact lines .events
  | ollama => exact lines .objects
  | gemini =>
    change (Decoder.values {}).outcome chunks = (Decoder.values {}).outcome others
    rw [outcome_values, outcome_values, Scan.outcome_eq_conclude, Scan.outcome_eq_conclude, same]

end Wire

namespace Http

/-- Responses that do not differ except in how their bytes are cut into chunks. -/
inductive Resliced : Response → Response → Prop
  | same (r : Response) : Resliced r r
  | cut {status : Int} {chunks others : List Bytes} (bytes : chunks.flatten = others.flatten) :
    Resliced (.answered status (chunks.map .bytes)) (.answered status (others.map .bytes))

/-- Networks that do not differ except in how the responses to come are cut into chunks. -/
structure Network.Resliced (n other : Network) : Prop where
  sent : n.sent = other.sent
  responses : List.Forall₂ Http.Resliced n.responses other.responses

namespace Network.Resliced
variable {n other : Network} (start : n.Resliced other)
include start

theorem next : Http.Resliced n.next other.next := by
  obtain ⟨responses, sent⟩ := n
  obtain ⟨responses', sent'⟩ := other
  obtain ⟨-, same⟩ := start
  unfold Network.next
  cases same with
  | nil => exact .same _
  | cons first _ => exact first

theorem send (r : Request) : Http.Resliced ((send r).run n).1 ((send r).run other).1 ∧
    ((Network.send r).run n).2.Resliced ((Network.send r).run other).2 := by
  refine ⟨start.next, congrArg (· ++ [r]) start.sent, ?_⟩
  obtain ⟨-, responses⟩ := start
  have count := responses.length_eq
  change List.Forall₂ _ (if 1 < n.responses.length then _ else _) (if 1 < other.responses.length then _ else _)
  rw [count]
  split
  · exact List.forall₂_drop 1 responses
  · exact responses

end Network.Resliced
end Http

namespace Backend

theorem streamed_resliced (b : Backend) {r other : Response} (same : Resliced r other) :
    b.streamed r = b.streamed other := by
  cases same with
  | same r => rfl
  | @cut status chunks others bytes =>
    cases success : isSuccess status with
    | true => rw [streamed_bytes b success, streamed_bytes b success, outcome_eq_of_flatten b.kind bytes]
    | false =>
      have refused (cs : List Bytes) : b.readStream (.answered status (cs.map .bytes)) =
          ([], .error (.fault (Fault.badStatus b.kind.name status (ofUtf8 cs.flatten)))) := by
        rw [readStream, if_pos (by simp [success]), wholeBody_bytes]
      rw [streamed, streamed, refused, refused, bytes]

end Backend

namespace Reply

/-- Streams that are the same, or that the same failure breaks off. -/
def Agrees (a b : Reply) : Prop := a = b ∨ ∃ e, failure? a = some e ∧ failure? b = some e

theorem Agrees.alike (a b : Reply) (agrees : a.Agrees b) : a.Alike b := by
  rcases agrees with rfl | ⟨e, failed, failed'⟩
  · exact .refl a
  · refine ⟨failed.trans failed'.symm, fun unbroken => ?_⟩
    rw [failed] at unbroken
    contradiction

/-- The stream of a reply: pieces of text, and how it ends. -/
def ofStream (stream : List String × Except Failure Unit) : Reply :=
  stream.1.map .ok ++ match stream.2 with
    | .ok () => []
    | .error e => [.error e]

theorem failure?_ofStream_error (pieces : List String) (e : Failure) :
    failure? (ofStream (pieces, .error e)) = some e := by
  induction pieces with
  | nil => rfl
  | cons piece pieces ih => exact ih

/-- Streams agree if what they deliver as a whole is the same. -/
theorem Agrees.ofStream {b : Backend} {r other : Response} (same : b.streamed r = b.streamed other) :
    (Reply.ofStream (b.readStream r)).Agrees (Reply.ofStream (b.readStream other)) := by
  unfold Backend.streamed at same
  generalize b.readStream r = stream at same ⊢
  generalize b.readStream other = stream' at same ⊢
  obtain ⟨pieces, ending⟩ := stream
  obtain ⟨pieces', ending'⟩ := stream'
  cases ending with
  | ok =>
    cases ending' with
    | ok =>
      cases same
      exact .inl rfl
    | error e => cases same
  | error e =>
    cases ending' with
    | ok => cases same
    | error e' =>
      cases same
      exact .inr ⟨e, failure?_ofStream_error _ e, failure?_ofStream_error _ e⟩

end Reply

/-- An event is a piece of text of a reply. -/
def Event.isChunk : Event → Bool
  | chunk _ => true
  | _ => false

theorem CallRun.events_not_chunk (x : CallRun) : ∀ e ∈ x.events, e.isChunk = false := by
  intro e mem
  rcases List.mem_cons.mp mem with rfl | rest
  · rfl
  · split at rest
    · cases List.mem_singleton.mp rest
      rfl
    · split at rest
      · cases List.mem_singleton.mp rest
        rfl
      · cases rest
    · cases rest

namespace Round

/-- Apart from the pieces of the reply, the events of a round are those of its calls. -/
theorem filter_events (x : Round) :
    (x.events.filter fun e => !e.isChunk) = x.ran.flatMap CallRun.events := by
  have pieces : ((Reply.delivered x.reply).map Event.chunk).filter (fun e => !e.isChunk) = [] := by
    rw [List.filter_eq_nil_iff]
    intro e mem
    obtain ⟨piece, -, rfl⟩ := List.mem_map.mp mem
    simp [Event.isChunk]
  rw [events, List.filter_append, pieces, List.nil_append, List.filter_eq_self]
  intro e mem
  obtain ⟨y, -, inside⟩ := List.mem_flatMap.mp mem
  rw [y.events_not_chunk e inside]
  rfl

namespace Matches

/-- Rounds that match have the same events apart from the pieces of the replies. -/
theorem filter_flatMap_events {alike : Reply → Reply → Prop} {xs ys : List Round}
    (same : List.Forall₂ (Matches alike) xs ys) :
    ((xs.flatMap Round.events).filter fun e => !e.isChunk) =
      (ys.flatMap Round.events).filter fun e => !e.isChunk := by
  induction same with
  | nil => rfl
  | cons first _ ih =>
    rw [List.flatMap_cons, List.flatMap_cons, List.filter_append, List.filter_append, ih, filter_events,
      filter_events, first.ran_eq]

/-- Rounds that match are the same if no failure breaks them off. -/
theorem eq_of_unbroken {settings : Settings} {xs ys : List Round}
    (same : List.Forall₂ (Matches Reply.Agrees) xs ys)
    (unbroken : ∀ x ∈ xs, x.failure? settings = none) : xs = ys := by
  induction same with
  | nil => rfl
  | @cons x y xs ys first _ ih =>
    have streamed := (Option.or_eq_none_iff.mp (unbroken x (by simp))).1
    have reply : x.reply = y.reply := by
      rcases first.reply with equal | ⟨e, failed, -⟩
      · exact equal
      · rw [failed] at streamed
        contradiction
    have equal : x.Matches Eq y := ⟨first.asked_eq, reply, first.ran_eq⟩
    rw [equal.eq, ih fun z hz => unbroken z (by simp [hz])]

end Matches
end Round

/-- Worlds with the same files and the same index that do not differ except in how the responses to come
are cut into chunks. -/
structure ServiceWorld.Resliced (world other : ServiceWorld) : Prop where
  bench : world.bench = other.bench
  network : world.network.Resliced other.network

namespace Service
variable (s : Service)

theorem reply_run (q : Query) (world : ServiceWorld) : (s.reply q).run world =
    let b := s.settings.backend (BackendKind.ofModel q.model)
    match b.request q true with
    | .error e => ([.error e], world)
    | .ok request =>
      (Reply.ofStream (b.readStream ((Network.send request).run world.network).1),
        { world with network := ((Network.send request).run world.network).2 }) := by
  rw [reply, StateT.run_bind]
  dsimp only
  cases (s.settings.backend (BackendKind.ofModel q.model)).request q true with
  | error e => rfl
  | ok request => rfl

/-- A service follows itself from worlds that differ in the chunks of responses. -/
theorem follows_resliced : s.turnHost.Follows Reply.Agrees ServiceWorld.Resliced s.turnHost where
  reply := by
    intro q world other start
    change Reply.Agrees ((s.reply q).run world).1 ((s.reply q).run other).1 ∧
      ((s.reply q).run world).2.Resliced ((s.reply q).run other).2
    rw [reply_run, reply_run]
    dsimp only
    cases (s.settings.backend (BackendKind.ofModel q.model)).request q true with
    | error e => exact ⟨.inl rfl, start⟩
    | ok request =>
      obtain ⟨response, network⟩ := start.network.send request
      exact ⟨.ofStream (Backend.streamed_resliced _ response), start.bench, network⟩
  execute := by
    rintro call ⟨bench, network⟩ ⟨bench', network'⟩ ⟨rfl, start⟩
    exact ⟨rfl, rfl, start⟩
  newIdentifier := by
    rintro ⟨bench, network⟩ ⟨bench', network'⟩ ⟨rfl, start⟩
    exact ⟨rfl, rfl, start⟩

/-- The rounds of a turn, on two networks that cut the same responses in different ways. -/
theorem run_resliced (r : TurnRequest) (messages : List Message) {world other : ServiceWorld}
    (start : world.Resliced other) :
    let (ended, run) := r.run s.turnHost messages world
    let (ended', run') := r.run s.turnHost messages other
    ended = ended' ∧ run.world.Resliced run'.world ∧
      ∃ rounds rounds', s.turnHost.Plays r.settings world rounds run.world ∧
        s.turnHost.Plays r.settings other rounds' run'.world ∧
        run.events = rounds.flatMap Round.events ∧ run'.events = rounds'.flatMap Round.events ∧
        List.Forall₂ (Round.Matches Reply.Agrees) rounds rounds' ∧
        ∀ result, ended = .ok result → rounds = rounds' := by
  have accepts (n : Nat) : s.turnHost.accepts n = true := rfl
  obtain ⟨rounds, course, plays, -, events⟩ := r.exists_course s.turnHost messages world accepts
  obtain ⟨rounds', course', plays', -, events'⟩ := r.exists_course s.turnHost messages other accepts
  obtain ⟨outcome, same, after⟩ :=
    TurnRequest.Course.agree s.follows_resliced Reply.Agrees.alike course course' start plays plays'
  exact ⟨outcome, after, rounds, rounds', plays, plays', events, events', same,
    fun result returned => Round.Matches.eq_of_unbroken same (course.sound returned).1⟩

/-- However the network cuts its responses into chunks, a turn ends in the same way, in the same world, and
its calls come to the same. Up to the pieces of a reply that breaks off, so do its events, and if the turn
returns, all of its rounds are the same. -/
theorem turn_resliced (messages : List Message) (model : Option String) {world other : ServiceWorld}
    (start : world.Resliced other) :
    let ended := (s.turn messages model).run world
    let ended' := (s.turn messages model).run other
    ended.1.1 = ended'.1.1 ∧ ended.2.Resliced ended'.2 ∧
      (ended.1.2.filter fun e => !e.isChunk) = (ended'.1.2.filter fun e => !e.isChunk) ∧
      ∃ rounds rounds', s.turnHost.Plays s.settings world rounds ended.2 ∧
        s.turnHost.Plays s.settings other rounds' ended'.2 ∧
        ended.1.2 = rounds.flatMap Round.events ∧ ended'.1.2 = rounds'.flatMap Round.events ∧
        List.Forall₂ (Round.Matches Reply.Agrees) rounds rounds' ∧
        ∀ result, ended.1.1 = .ok result → rounds = rounds' := by
  intro ended ended'
  obtain ⟨outcome, after, rounds, rounds', plays, plays', events, events', same, whole⟩ :=
    s.run_resliced {
      settings := s.settings
      model := TurnRequest.modelOf s.settings model
      osName := s.osName
      workspace := s.workspace.map Place.path } messages start
  refine ⟨outcome, after, ?_, rounds, rounds', plays, plays', events, events', same, whole⟩
  have matched := Round.Matches.filter_flatMap_events same
  rwa [← events, ← events'] at matched

/-- A call of a tool that arrives in one chunk, and the same call cut inside its tag and inside a character. -/
theorem turn_resliced_inside_tag :
    let s : Service := { settings := { maxIterations := 1 }, outliner := standardOutliner }
    let line := Utf8.encode "\x7b\"message\": \x7b\"content\": \"<todo_list/> é\"\x7d\x7d\n".toList
    let served (chunks : List Bytes) : ServiceWorld := {
      bench := { files := {}, index := {} }
      network := { responses := [.answered 200 (chunks.map .bytes)] } }
    let world := served [line]
    let other := served [line.take 30, [], (line.take 39).drop 30, line.drop 39]
    let ended := (s.turn [] none).run world
    let ended' := (s.turn [] none).run other
    world.Resliced other ∧ ended.1.2.map Event.type = ["chunk", "agent-tool-start", "agent-tool-error"] ∧
      ended.1.1 = ended'.1.1 ∧ ended.2.Resliced ended'.2 ∧
      (ended.1.2.filter fun e => !e.isChunk) = (ended'.1.2.filter fun e => !e.isChunk) ∧
      ∃ rounds rounds', s.turnHost.Plays s.settings world rounds ended.2 ∧
        s.turnHost.Plays s.settings other rounds' ended'.2 ∧
        ended.1.2 = rounds.flatMap Round.events ∧ ended'.1.2 = rounds'.flatMap Round.events ∧
        List.Forall₂ (Round.Matches Reply.Agrees) rounds rounds' ∧
        ∀ result, ended.1.1 = .ok result → rounds = rounds' := by
  refine ⟨⟨rfl, rfl, .cons (.cut ?bytes) .nil⟩, ?called,
    Service.turn_resliced _ [] none ⟨rfl, rfl, .cons (.cut ?bytes) .nil⟩⟩
  case bytes => decide +kernel
  case called => decide +kernel

end Service
end CodeAgent
