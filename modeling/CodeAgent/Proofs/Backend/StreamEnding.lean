import CodeAgent.Proofs.Wire.StreamParts
import CodeAgent.Backend.Basic

/-! Queries that are sent to a backend: they fail for want of a key, or because they cannot be written as a request.
How a streamed reply ends: normally, in a fault of the backend, or, if the request or a part of the response is beyond
the limits, in a breakdown. -/
namespace CodeAgent
open CodeAgent.Text CodeAgent.Http

namespace Http

/-- A request that cannot be written: its address is no URL, its header is no plain text, or a number in its
body is infinite or undefined. -/
def Unwritable (address : String) (authorization : Option String) (body : Json) : Prop :=
  Url.read? address.toList = none ∨ (∃ c ∈ (authorization.getD "").toList, 127 < c.toNat) ∨
    isFinite body = false

theorem Request.build_cases (method address : String) (field : Option (String × String))
    (authorization : Option String) (body : Json) :
    (Unwritable address authorization body ∧
      ∃ e, Request.build method address field authorization (some body) = .error (.breakdown e)) ∨
    (¬ Unwritable address authorization body ∧
      ∃ request, Request.build method address field authorization (some body) = .ok request) := by
  unfold Request.build Unwritable
  cases Url.read? address.toList with
  | none => exact .inl ⟨.inl rfl, .badAddress, rfl⟩
  | some url =>
    dsimp only
    cases foreign : (authorization.getD "").toList.any fun c => decide (127 < c.toNat) with
    | true =>
      refine .inl ⟨.inr (.inl ?_), .badHeader, rfl⟩
      simpa using foreign
    | false =>
      have plain : ¬ ∃ c ∈ (authorization.getD "").toList, 127 < c.toNat := by simpa using foreign
      cases finite : isFinite body with
      | true =>
        refine .inr ⟨by simp [plain], ?_⟩
        simp [finite, pure, Except.pure]
      | false =>
        refine .inl ⟨.inr (.inr rfl), .badValue, ?_⟩
        simp [finite, bind, Except.bind, throw, throwThe, MonadExceptOf.throw]

end Http

namespace Backend
variable (b : Backend)

/-- The address that a query goes to: for a stream, or for a reply that comes all at once. -/
def target (model : String) (stream : Bool) : String :=
  match b.kind with
  | .openai => b.address ++ "/chat/completions"
  | .ollama => b.address ++ "/api/chat"
  | .gemini => b.address ++ "/models/" ++ model ++
      if stream then ":streamGenerateContent" else ":generateContent"

/-- The credentials that a query has in its header. -/
def authorization? : Option String :=
  match b.kind with
  | .openai => b.key.map ("Bearer " ++ ·)
  | _ => none

/-- A key is there if one is needed. -/
def Keyed : Prop := b.kind.needsKey = true → ∃ key, b.key = some key ∧ key ≠ ""

/-- A query that cannot be written as a request for a stream, or for a reply that comes all at once. -/
def Unposted (q : Query) (stream : Bool) : Prop :=
  Unwritable (b.target q.model stream) b.authorization? (q.body b.kind stream)

theorem presentKey_cases : (∃ key, key ≠ "" ∧ b.key = some key ∧ b.presentKey = .ok key) ∨
    (b.key = none ∨ b.key = some "") ∧ b.presentKey = .error (.fault (Fault.missingKey b.kind.name)) := by
  unfold presentKey
  split
  · next absent => exact .inr ⟨.inl absent, rfl⟩
  · next empty => exact .inr ⟨.inr empty, rfl⟩
  · next key filled given => exact .inl ⟨key, filled, given, rfl⟩

/-- A query fails for want of a key, or because it cannot be written. -/
theorem request_outcome (q : Query) (stream : Bool) :
    (¬ b.Keyed ∧ b.request q stream = .error (.fault (Fault.missingKey b.kind.name))) ∨
    (b.Keyed ∧ b.Unposted q stream ∧ ∃ e, b.request q stream = .error (.breakdown e)) ∨
    (b.Keyed ∧ ¬ b.Unposted q stream ∧ ∃ request, b.request q stream = .ok request) := by
  have written (keyed : b.Keyed) (field : Option (String × String)) (made : b.request q stream =
      Request.build "POST" (b.target q.model stream) field b.authorization? (some (q.body b.kind stream))) :
      (b.Keyed ∧ b.Unposted q stream ∧ ∃ e, b.request q stream = .error (.breakdown e)) ∨
        (b.Keyed ∧ ¬ b.Unposted q stream ∧ ∃ request, b.request q stream = .ok request) := by
    rw [made]
    obtain ⟨bad, e, failed⟩ | ⟨good, request, built⟩ :=
      Request.build_cases "POST" (b.target q.model stream) field b.authorization? (q.body b.kind stream)
    · exact .inl ⟨keyed, bad, e, failed⟩
    · exact .inr ⟨keyed, good, request, built⟩
  have unkeyed (needs : b.kind.needsKey = true) (absent : b.key = none ∨ b.key = some "") : ¬ b.Keyed := by
    intro keyed
    obtain ⟨key, given, filled⟩ := keyed needs
    rw [given] at absent
    rcases absent with none | empty
    · contradiction
    · exact filled (Option.some.inj empty)
  cases kind : b.kind with
  | ollama =>
    right
    refine written (fun needs => ?_) none ?_
    · rw [kind] at needs
      contradiction
    · simp only [request, target, authorization?, kind]
  | openai =>
    have needs : b.kind.needsKey = true := by rw [kind]; rfl
    rcases b.presentKey_cases with ⟨key, filled, given, present⟩ | ⟨absent, missing⟩
    · right
      refine written (fun _ => ⟨key, given, filled⟩) none ?_
      simp only [request, target, authorization?, kind, present, given]
      rfl
    · left
      refine ⟨unkeyed needs absent, ?_⟩
      simp only [request, kind, missing]
      rfl
  | gemini =>
    have needs : b.kind.needsKey = true := by rw [kind]; rfl
    rcases b.presentKey_cases with ⟨key, filled, given, present⟩ | ⟨absent, missing⟩
    · right
      refine written (fun _ => ⟨key, given, filled⟩) (some ("key", key)) ?_
      simp only [request, target, authorization?, kind, present]
      rfl
    · left
      refine ⟨unkeyed needs absent, ?_⟩
      simp only [request, kind, missing]
      rfl

end Backend
end CodeAgent

namespace CodeAgent
open CodeAgent.Text CodeAgent.Http CodeAgent.Wire

namespace BackendKind

/-- The JSON text in a part of a stream, if it holds data. -/
def data? : BackendKind → List Char → Option (List Char)
  | openai, line => (dropStart? dataMark line).bind fun rest =>
    if trimChars rest == doneMark then none else some (trimChars rest)
  | _, part => some part

/-- The texts in a value of a stream. -/
def textsOfJson : BackendKind → Json → Except Breakdown (List String)
  | openai, v => .ok ((eventText v).filter (· != "")).toList
  | ollama, v => .ok ((messageText v).filter (· != "")).toList
  | gemini, v => valueTexts v

/-- The texts in a part of a stream: none where there is no data, or no JSON. -/
def textsIn (kind : BackendKind) (part : List Char) : List String :=
  match kind.data? part with
  | none => []
  | some cs => match Json.readChars? cs with
    | .ok v => (kind.textsOfJson v).toOption.getD []
    | .error _ => []

/-- A part of a stream holds JSON beyond the limits, or responses that are misshapen. -/
def Unreadable (kind : BackendKind) (part : List Char) (b : Breakdown) : Prop :=
  ∃ cs, kind.data? part = some cs ∧
    (Json.readChars? cs = .error .tooDeep ∧ b = .tooNested ∨
      Json.readChars? cs = .error .integerTooLong ∧ b = .badValue ∨
      kind = gemini ∧ b = .wrongType ∧
        ∃ v, Json.readChars? cs = .ok v ∧ ∃ response ∈ responsesOf v, Misshapen response)

theorem textsOf_eq (kind : BackendKind) (part : List Char) : kind.decoder.textsOf part =
    match kind.data? part with
    | none => .ok []
    | some cs => match Json.readChars? cs with
      | .ok v => kind.textsOfJson v
      | .error .malformed => .ok []
      | .error e => .error (Failure.ofRead e) := by
  cases kind with
  | gemini =>
    change textsOfValue part = _
    unfold textsOfValue readJson data?
    dsimp only
    cases Json.readChars? part with
    | ok v => rfl
    | error e => cases e <;> rfl
  | ollama =>
    change LineFormat.objects.texts part = _
    unfold LineFormat.texts LineFormat.textOf readJson data?
    dsimp only
    cases Json.readChars? part with
    | ok v => rfl
    | error e => cases e <;> rfl
  | openai =>
    change LineFormat.events.texts part = _
    unfold LineFormat.texts LineFormat.textOf data?
    dsimp only
    cases dropStart? dataMark part with
    | none => rfl
    | some rest =>
      dsimp only [Option.bind]
      split
      · rfl
      · unfold readJson
        dsimp only
        cases Json.readChars? (trimChars rest) with
        | ok v => rfl
        | error e => cases e <;> rfl

theorem textsOf_eq_error_iff {kind : BackendKind} {part : List Char} {b : Breakdown} :
    kind.decoder.textsOf part = .error b ↔ kind.Unreadable part b := by
  rw [textsOf_eq]
  unfold Unreadable
  cases kind.data? part with
  | none => simp
  | some cs =>
    simp only [Option.some.injEq, exists_eq_left']
    cases Json.readChars? cs with
    | error e => cases e <;> simp [Failure.ofRead, eq_comm]
    | ok v => cases kind <;> simp [textsOfJson, valueTexts_eq_error_iff]

theorem textsOf_eq_ok {kind : BackendKind} {part : List Char} {texts : List String}
    (read : kind.decoder.textsOf part = .ok texts) : texts = kind.textsIn part := by
  rw [textsOf_eq] at read
  unfold textsIn
  cases hd : kind.data? part with
  | none =>
    rw [hd] at read
    cases read
    rfl
  | some cs =>
    rw [hd] at read
    dsimp only at read ⊢
    cases hr : Json.readChars? cs with
    | ok v =>
      rw [hr] at read
      dsimp only at read ⊢
      rw [read]
      rfl
    | error e =>
      rw [hr] at read
      cases e <;> cases read
      rfl

theorem decoder_settled (kind : BackendKind) : kind.decoder.parts [] = ([], kind.decoder) := by
  cases kind <;> rfl

end BackendKind

namespace Http

/-- The bytes that arrive, and the failure that cuts them off. -/
def received : List Arrival → Bytes × Option String
  | [] => ([], none)
  | .failure message :: _ => ([], some message)
  | .bytes bs :: more => (bs ++ (received more).1, (received more).2)

end Http

namespace Backend
variable (b : Backend)

/-- How a stream ends if all of its parts can be read. -/
def closing (d : Decoder) (body : List Arrival) : Except Failure Unit :=
  match (received body).2 with
  | some message => .error (b.connectionFault message)
  | none => match (d.parts (received body).1).2.unfinished? with
    | some value => .error (.fault (Scan.unfinished value))
    | none => .ok ()

theorem closing_bytes (d : Decoder) (chunk : Bytes) (more : List Arrival) :
    b.closing d (.bytes chunk :: more) = b.closing (d.parts chunk).2 more := by
  rw [closing, received, closing]
  dsimp only
  rw [d.parts_append]

/-- The texts of a stream are those of its parts, up to the first that cannot be read. -/
theorem readChunks_eq {d : Decoder} (settled : d.parts [] = ([], d)) (body : List Arrival) :
    match (d.allParts (received body).1 (received body).2.isNone).mapM d.textsOf with
    | .error e => (readStream.readChunks b d body).2 = .error (.breakdown e)
    | .ok texts => readStream.readChunks b d body = (texts.flatten, b.closing d body) := by
  induction body generalizing d with
  | nil =>
    have all : d.allParts [] true = d.last?.toList := by
      rw [Decoder.allParts, settled]
      rfl
    change match (d.allParts [] true).mapM d.textsOf with
      | .error e => _
      | .ok texts => _
    rw [all, readStream.readChunks, closing, received]
    dsimp only
    rw [settled, d.finish_texts]
    cases unfinished : d.unfinished? with
    | some value =>
      rw [d.last?_eq_none unfinished]
      rfl
    | none => cases List.mapM d.textsOf d.last?.toList <;> rfl
  | cons arrival more ih =>
    cases arrival with
    | failure message =>
      have all : d.allParts [] false = [] := by
        rw [Decoder.allParts, settled]
        rfl
      change match (d.allParts [] false).mapM d.textsOf with
        | .error e => _
        | .ok texts => _
      rw [all]
      rfl
    | bytes chunk =>
      have fed := d.feed_texts chunk
      rw [received]
      dsimp only
      rw [d.allParts_append, List.mapM_append, readStream.readChunks]
      dsimp only
      cases first : (d.parts chunk).1.mapM d.textsOf with
      | error e =>
        rw [first] at fed
        rw [show (d.feed chunk).2 = .error (.breakdown e) from fed]
        rfl
      | ok texts =>
        rw [first] at fed
        have fed : (d.feed chunk).2 = .ok texts.flatten := fed
        have rest := ih (d.parts_settled chunk)
        rw [fed, d.feed_state fed]
        rw [d.textsOf_parts] at rest
        dsimp only
        rw [closing_bytes]
        cases later : List.mapM d.textsOf ((d.parts chunk).2.allParts _ _) with
        | error e =>
          rw [later] at rest
          exact rest
        | ok texts' =>
          rw [later] at rest
          dsimp only at rest
          rw [rest]
          exact congrArg (·, _) List.flatten_append.symm

/-- The address that a streamed query goes to. -/
def endpoint (model : String) : String :=
  match b.kind with
  | .openai => b.address ++ "/chat/completions"
  | .ollama => b.address ++ "/api/chat"
  | .gemini => b.address ++ "/models/" ++ model ++ ":streamGenerateContent"

/-- A query that cannot be written as a request. -/
def Unsendable (q : Query) : Prop :=
  Unwritable (b.endpoint q.model) b.authorization? (q.body b.kind true)

theorem unsendable_iff (q : Query) : b.Unsendable q ↔ b.Unposted q true := by
  unfold Unsendable Unposted endpoint target
  cases b.kind <;> rfl

/-- A streamed query fails for want of a key, or because it cannot be written. -/
theorem request_cases (q : Query) :
    (¬ b.Keyed ∧ b.request q true = .error (.fault (Fault.missingKey b.kind.name))) ∨
    (b.Keyed ∧ b.Unsendable q ∧ ∃ e, b.request q true = .error (.breakdown e)) ∨
    (b.Keyed ∧ ¬ b.Unsendable q ∧ ∃ request, b.request q true = .ok request) := by
  rw [unsendable_iff]
  exact b.request_outcome q true

/-- What comes of a streamed query that is answered by some response. -/
def stream (q : Query) (r : Response) : List String × Except Failure Unit :=
  match b.request q true with
  | .error e => ([], .error e)
  | .ok _ => b.readStream r

/-- The lines or values in the body of a response. -/
def partsOf (body : List Arrival) : List (List Char) :=
  b.kind.decoder.allParts (received body).1 (received body).2.isNone

/-- A part of a response cannot be read. -/
def Unintelligible : Response → Prop
  | .answered status body =>
    isSuccess status = true ∧ ∃ part ∈ b.partsOf body, ∃ e, b.kind.Unreadable part e
  | .unreachable _ => False

/-- The query cannot be written, or a part of the response cannot be read. -/
def BeyondLimits (q : Query) (r : Response) : Prop := b.Keyed ∧ (b.Unsendable q ∨ b.Unintelligible r)

theorem readStream_answered {status : Int} (success : isSuccess status = true) (body : List Arrival) :
    (∃ part ∈ b.partsOf body, ∃ e, b.kind.Unreadable part e ∧
      (b.readStream (.answered status body)).2 = .error (.breakdown e)) ∨
    (¬ (∃ part ∈ b.partsOf body, ∃ e, b.kind.Unreadable part e) ∧ b.readStream (.answered status body) =
      ((b.partsOf body).flatMap b.kind.textsIn, b.closing b.kind.decoder body)) := by
  have chunks := b.readChunks_eq b.kind.decoder_settled body
  rw [readStream, if_neg (by simp [success])]
  have each := mapM_cases (g := b.kind.textsIn) (fun part texts => BackendKind.textsOf_eq_ok) (b.partsOf body)
  change match (b.partsOf body).mapM b.kind.decoder.textsOf with
    | .error e => _
    | .ok texts => _ at chunks
  rcases each with ⟨part, mem, e, failed, made⟩ | ⟨readable, made⟩
  · rw [made] at chunks
    exact .inl ⟨part, mem, e, BackendKind.textsOf_eq_error_iff.mp failed, chunks⟩
  · rw [made] at chunks
    simp only [BackendKind.textsOf_eq_error_iff] at readable
    exact .inr ⟨readable, chunks⟩

/-- A stream whose parts can be read ends normally, or because the connection fails, or inside a value. -/
theorem closing_cases (d : Decoder) (body : List Arrival) : b.closing d body = .ok () ∨
    (∃ message, b.closing d body = .error (b.connectionFault message)) ∨
    ∃ value, (received body).2 = none ∧ (d.parts (received body).1).2.unfinished? = some value ∧
      b.closing d body = .error (.fault (Scan.unfinished value)) := by
  unfold closing
  cases (received body).2 with
  | some message => exact .inr (.inl ⟨message, rfl⟩)
  | none => cases (d.parts (received body).1).2.unfinished? with
    | none => exact .inl rfl
    | some value => exact .inr (.inr ⟨value, rfl, rfl, rfl⟩)

/-- Responses other than a body with a status of success are faults of the connection or of the backend. -/
theorem readStream_refused {r : Response}
    (refused : ∀ status body, r = .answered status body → isSuccess status = false) :
    ∃ f, b.readStream r = ([], .error (.fault f)) ∧ f.kind.isProvider = true ∧ f.kind ≠ .providerResponse := by
  cases r with
  | unreachable message => exact ⟨_, rfl, rfl, nofun⟩
  | answered status body =>
    rw [readStream, if_pos (by simp [refused status body rfl])]
    cases wholeBody body with
    | error message => exact ⟨_, rfl, rfl, nofun⟩
    | ok bs => exact ⟨_, rfl, rfl, nofun⟩

/-- What the end of a reading of a response can be. -/
theorem readStream_cases (r : Response) :
    (b.Unintelligible r ∧ ∃ e, (b.readStream r).2 = .error (.breakdown e)) ∨
    (¬ b.Unintelligible r ∧ ((b.readStream r).2 = .ok () ∨
      ∃ f, (b.readStream r).2 = .error (.fault f) ∧ f.kind.isProvider = true ∧
        (f.kind = .providerResponse → ∃ status body value,
          r = .answered status body ∧ isSuccess status = true ∧ (received body).2 = none ∧
            (b.kind.decoder.parts (received body).1).2.unfinished? = some value ∧
            f = Scan.unfinished value))) := by
  by_cases answered : ∃ status body, r = .answered status body ∧ isSuccess status = true
  · obtain ⟨status, body, rfl, success⟩ := answered
    rcases b.readStream_answered success body with ⟨part, mem, e, unreadable, broken⟩ | ⟨readable, read⟩
    · exact .inl ⟨⟨success, part, mem, e, unreadable⟩, e, broken⟩
    · refine .inr ⟨fun unintelligible => readable unintelligible.2, ?_⟩
      rw [read]
      obtain ended | ⟨message, failed⟩ | ⟨value, whole, inside, broken⟩ :=
        b.closing_cases b.kind.decoder body
      · exact .inl ended
      · exact .inr ⟨_, failed, rfl, nofun⟩
      · exact .inr ⟨_, broken, rfl, fun _ => ⟨status, body, value, rfl, success, whole, inside, rfl⟩⟩
  · have refused : ∀ status body, r = .answered status body → isSuccess status = false := by
      intro status body same
      exact Bool.eq_false_iff.mpr fun success => answered ⟨status, body, same, success⟩
    obtain ⟨f, faulty, kind, other⟩ := b.readStream_refused refused
    refine .inr ⟨?_, .inr ⟨f, by rw [faulty], kind, fun response => absurd response other⟩⟩
    cases r with
    | unreachable message => exact id
    | answered status body => exact fun intelligible => answered ⟨status, body, rfl, intelligible.1⟩

/-- A streamed reply ends normally or in a fault of the backend, unless the query or the response is beyond
the limits, and exactly then it breaks down. The one fault for an unreadable response is that of a stream
which ends inside a value. Below the limits, the texts of a stream are those of its lines or values that
hold data, whatever else stands between them. -/
theorem stream_faults_unless_beyond_limits (q : Query) (r : Response) :
    ((∃ e, (b.stream q r).2 = .error (.breakdown e)) ↔ b.BeyondLimits q r) ∧
    (¬ b.BeyondLimits q r → (b.stream q r).2 = .ok () ∨
      ∃ f, (b.stream q r).2 = .error (.fault f) ∧ f.kind.isProvider = true ∧
        (f.kind = .providerResponse → ∃ status body value,
          r = .answered status body ∧ isSuccess status = true ∧ (received body).2 = none ∧
            (b.kind.decoder.parts (received body).1).2.unfinished? = some value ∧
            f = Scan.unfinished value)) ∧
    ∀ status body, r = .answered status body → isSuccess status = true → b.Keyed →
      ¬ b.BeyondLimits q r →
        b.stream q r = ((b.partsOf body).flatMap b.kind.textsIn, b.closing b.kind.decoder body) := by
  unfold stream BeyondLimits
  obtain ⟨unkeyed, missing⟩ | ⟨keyed, unsendable, e, failed⟩ | ⟨keyed, sendable, request, sent⟩ :=
    b.request_cases q
  · rw [missing]
    exact ⟨by simp [unkeyed], fun _ => .inr ⟨_, rfl, rfl, nofun⟩, fun _ _ _ _ keyed => absurd keyed unkeyed⟩
  · rw [failed]
    exact ⟨by simp [keyed, unsendable], by simp [keyed, unsendable], by simp [keyed, unsendable]⟩
  · rw [sent]
    simp only [keyed, sendable, true_and, false_or]
    rcases b.readStream_cases r with ⟨unintelligible, e, broken⟩ | ⟨intelligible, ended⟩
    · exact ⟨by simp [unintelligible, broken], fun below => absurd unintelligible below,
        fun _ _ _ _ _ below => absurd unintelligible below⟩
    · refine ⟨?_, fun _ => ended, ?_⟩
      · rw [iff_false_right intelligible]
        rintro ⟨e, broken⟩
        rw [broken] at ended
        rcases ended with ended | ⟨f, faulty, -⟩
        · cases ended
        · cases faulty
      · rintro status body rfl success - -
        rcases b.readStream_answered success body with ⟨part, mem, e, unreadable, -⟩ | ⟨-, read⟩
        · exact absurd ⟨success, part, mem, e, unreadable⟩ intelligible
        · exact read

/-- A line that is no JSON between two lines with a text, the second of which the end of the stream ends. -/
theorem stream_faults_unless_beyond_limits_garbled_line :
    let b : Backend := { kind := .ollama, address := "http://h" }
    let q : Query := { model := "m", messages := [⟨.user, "hi"⟩] }
    let line (s : String) := Utf8.encode ("\x7b\"message\": \x7b\"content\": \"" ++ s ++ "\"\x7d\x7d").toList
    let body := [.bytes (line "a" ++ [lineFeed, 0x7b, 0xff, lineFeed]), .bytes (line "b")]
    ¬ b.BeyondLimits q (.answered 200 body) ∧
      b.stream q (.answered 200 body) =
        ((b.partsOf body).flatMap b.kind.textsIn, b.closing b.kind.decoder body) ∧
      b.stream q (.answered 200 body) = (["a", "b"], .ok ()) := by
  refine ⟨?below, (stream_faults_unless_beyond_limits _ _ _).2.2 200 _ rfl rfl nofun ?below, rfl⟩
  intro beyond
  obtain ⟨e, broken⟩ := (stream_faults_unless_beyond_limits _ _ _).1.mpr beyond
  exact nomatch (show Except.ok () = Except.error _ from broken)

/-- A value whose candidates are a number. -/
theorem stream_breaks_on_unlisted_candidates :
    let b : Backend := { kind := .gemini, address := "http://h", key := some "k" }
    let q : Query := { model := "m", messages := [⟨.user, "hi"⟩] }
    let r : Response := .answered 200 [.bytes (Utf8.encode "\x7b\"candidates\": 5\x7d".toList)]
    (b.stream q r).2 = .error (.breakdown .wrongType) ∧
      ¬ ((b.stream q r).2 = .ok () ∨
        ∃ f, (b.stream q r).2 = .error (.fault f) ∧ f.kind.isProvider = true) := by
  refine ⟨rfl, ?_⟩
  rintro (ended | ⟨f, faulty, -⟩)
  · exact nomatch (show Except.error _ = Except.ok () from ended)
  · exact nomatch (show Except.error (Failure.breakdown _) = _ from faulty)

end Backend
end CodeAgent
