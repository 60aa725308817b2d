import CodeAgent.Proofs.Backend.StreamEnding
import CodeAgent.Proofs.Wire.StreamParts

/-! What comes of a query whose reply comes all at once, and of one for the installed models: a text, or a list of
models, or a fault of the backend, unless the response is nested too deep or holds other values where the reply should
be. -/
namespace CodeAgent
open CodeAgent.Text CodeAgent.Http CodeAgent.Wire

namespace Http.Response

/-- The document in a response with a status of success, if all of it arrives and its encoding is right. -/
def document? : Response → Option (List Char)
  | .unreachable _ => none
  | .answered status body =>
    if isSuccess status then (wholeBody body).toOption.bind Json.textOfBytes? else none

/-- The document is a JSON value. -/
def Holds (r : Response) (v : Json) : Prop :=
  ∃ cs, r.document? = some cs ∧ Json.readChars? cs = .ok v

/-- The document is JSON that is nested too deep. -/
def TooDeep (r : Response) : Prop :=
  ∃ cs, r.document? = some cs ∧ Json.readChars? cs = .error .tooDeep

theorem Holds.unique {r : Response} {v w : Json} (holds : r.Holds v) (also : r.Holds w) : v = w := by
  obtain ⟨cs, document, read⟩ := holds
  obtain ⟨cs', document', read'⟩ := also
  obtain rfl := Option.some.inj (document.symm.trans document')
  exact Except.ok.inj (read.symm.trans read')

theorem Holds.not_tooDeep {r : Response} {v : Json} (holds : r.Holds v) : ¬ r.TooDeep := by
  rintro ⟨cs', document', deep⟩
  obtain ⟨cs, document, read⟩ := holds
  obtain rfl := Option.some.inj (document.symm.trans document')
  cases read.symm.trans deep

end Http.Response

namespace BackendKind

/-- The reply in a value, which is the empty text where a value stands that does not count. -/
def reply? (kind : BackendKind) (v : Json) : Option Json :=
  match kind with
  | openai => (((firstChoice v).bind (·.get? "message")).bind (·.get? "content")).map orEmpty
  | ollama => ((v.get? "message").bind (·.get? "content")).map orEmpty
  | gemini => (valueTexts v).toOption.map fun texts => .str (String.join texts)
where
  /-- The value itself if it counts, or else the empty text. -/
  orEmpty (content : Json) : Json := if content.isPresent then content else .str ""

/-- The responses in a value are misshapen, so that their texts cannot be looked for. -/
def Unsearchable (kind : BackendKind) (v : Json) : Prop :=
  kind = gemini ∧ ∃ response ∈ responsesOf v, Misshapen response

end BackendKind

namespace Backend
variable (b : Backend)

theorem readBody_undocumented {r : Response} (none : r.document? = none) :
    ∃ f, b.readBody r = .error (.fault f) ∧ f.kind.isProvider = true := by
  cases r with
  | unreachable message => exact ⟨_, rfl, rfl⟩
  | answered status body =>
    unfold Response.document? at none
    unfold readBody
    dsimp only at none ⊢
    cases whole : wholeBody body with
    | error message => exact ⟨_, rfl, rfl⟩
    | ok bs =>
      cases success : isSuccess status with
      | false => exact ⟨_, rfl, rfl⟩
      | true =>
        have text : Json.textOfBytes? bs = Option.none := by simpa [whole, success, Except.toOption] using none
        simp only [text]
        exact ⟨_, rfl, rfl⟩

theorem readBody_documented {r : Response} {cs : List Char} (document : r.document? = some cs) :
    ∃ f : Fault, f.kind.isProvider = true ∧ b.readBody r = match Json.readChars? cs with
      | .ok v => .ok v
      | .error .tooDeep => .error (.breakdown .tooNested)
      | .error _ => .error (.fault f) := by
  cases r with
  | unreachable message => contradiction
  | answered status body =>
    unfold Response.document? at document
    unfold readBody
    dsimp only at document ⊢
    cases success : isSuccess status with
    | false => simp [success] at document
    | true =>
      cases whole : wholeBody body with
      | error message => simp [whole, success, Except.toOption] at document
      | ok bs =>
        have text : Json.textOfBytes? bs = some cs := by simpa [whole, success, Except.toOption] using document
        simp only [text]
        exact ⟨Fault.badResponse _ _, rfl, rfl⟩

/-- To read the body gives the JSON value in it, and fails in a fault of the backend unless that is nested too deep. -/
theorem readBody_cases (r : Response) :
    (∃ v, r.Holds v ∧ b.readBody r = .ok v) ∨
    (r.TooDeep ∧ b.readBody r = .error (.breakdown .tooNested)) ∨
    (¬ r.TooDeep ∧ (∀ v, ¬ r.Holds v) ∧ ∃ f, b.readBody r = .error (.fault f) ∧ f.kind.isProvider = true) := by
  cases document : r.document? with
  | none =>
    refine .inr (.inr ⟨?_, ?_, b.readBody_undocumented document⟩)
    · rintro ⟨cs, there, -⟩
      rw [document] at there
      contradiction
    · rintro v ⟨cs, there, -⟩
      rw [document] at there
      contradiction
  | some cs =>
    obtain ⟨f, kind, body⟩ := b.readBody_documented document
    cases read : Json.readChars? cs with
    | ok v =>
      rw [read] at body
      exact .inl ⟨v, ⟨cs, document, read⟩, body⟩
    | error e =>
      rw [read] at body
      by_cases deep : e = .tooDeep
      · subst deep
        exact .inr (.inl ⟨⟨cs, document, read⟩, body⟩)
      · refine .inr (.inr ⟨?_, ?_, f, ?_, kind⟩)
        · rintro ⟨cs', there, deep'⟩
          obtain rfl := Option.some.inj (document.symm.trans there)
          exact deep (Except.error.inj (read.symm.trans deep'))
        · rintro v ⟨cs', there, read'⟩
          obtain rfl := Option.some.inj (document.symm.trans there)
          cases read.symm.trans read'
        · rw [body]
          cases e with
          | tooDeep => exact absurd rfl deep
          | malformed => rfl
          | integerTooLong => rfl

/-- The response is nested too deep, or its candidates or their parts cannot be looked through. -/
def Breaks (r : Response) : Prop := r.TooDeep ∨ ∃ v, r.Holds v ∧ b.kind.Unsearchable v

/-- Where the reply should be, the response has a value that is no text. -/
def Mistypes (r : Response) : Prop :=
  ∃ v content, r.Holds v ∧ b.kind.reply? v = some content ∧ ∀ s, content ≠ .str s

theorem unsearchable_iff {kind : BackendKind} {v : Json} :
    kind.Unsearchable v ↔ kind = .gemini ∧ kind.reply? v = none := by
  unfold BackendKind.Unsearchable
  refine and_congr_right ?_
  rintro rfl
  have broken := valueTexts_eq_error_iff (v := v) (b := .wrongType)
  rw [eq_self, true_and] at broken
  rw [← broken, BackendKind.reply?]
  cases texts : valueTexts v with
  | ok found => simp [Except.toOption]
  | error e =>
    obtain ⟨rfl, -⟩ := valueTexts_eq_error_iff.mp texts
    simp [Except.toOption]

/-- The reply in a response whose body is a value. -/
theorem readReply_of_body {r : Response} {v : Json} (body : b.readBody r = .ok v) :
    ∃ f : Fault, f.kind.isProvider = true ∧ b.readReply r = match b.kind.reply? v with
      | some content => .ok content
      | none => .error (if b.kind = .gemini then .breakdown .wrongType else .fault f) := by
  have read : b.readReply r = (b.readBody r >>= fun v => _) := rfl
  rw [body] at read
  simp only [bind, Except.bind] at read
  rw [read]
  cases b.kind with
  | gemini =>
    unfold BackendKind.reply?
    dsimp only
    cases texts : valueTexts v with
    | ok found => exact ⟨Fault.badResponse none "", rfl, rfl⟩
    | error e =>
      obtain ⟨rfl, -⟩ := valueTexts_eq_error_iff.mp texts
      exact ⟨Fault.badResponse none "", rfl, rfl⟩
  | openai =>
    unfold BackendKind.reply?
    dsimp only
    cases (((firstChoice v).bind (·.get? "message")).bind (·.get? "content")) with
    | some content => exact ⟨Fault.badResponse none "", rfl, rfl⟩
    | none => exact ⟨Fault.badResponse _ _, rfl, rfl⟩
  | ollama =>
    unfold BackendKind.reply?
    dsimp only
    cases (v.get? "message").bind (·.get? "content") with
    | some content => exact ⟨Fault.badResponse none "", rfl, rfl⟩
    | none => exact ⟨Fault.badResponse _ _, rfl, rfl⟩

/-- To read a reply gives what the response has in its place, breaks, or fails in a fault of the backend. -/
theorem readReply_cases (r : Response) :
    (¬ b.Breaks r ∧ ∃ v content, r.Holds v ∧ b.kind.reply? v = some content ∧ b.readReply r = .ok content) ∨
    (b.Breaks r ∧ ∃ e, b.readReply r = .error (.breakdown e)) ∨
    (¬ b.Breaks r ∧ (∀ v, r.Holds v → b.kind.reply? v = none) ∧
      ∃ f, b.readReply r = .error (.fault f) ∧ f.kind.isProvider = true) := by
  have failed {e : Failure} (body : b.readBody r = .error e) : b.readReply r = .error e := by
    have read : b.readReply r = (b.readBody r >>= fun v => _) := rfl
    rw [read, body]
    rfl
  obtain ⟨v, holds, body⟩ | ⟨deep, body⟩ | ⟨shallow, empty, f, body, kind⟩ := b.readBody_cases r
  · have breaks : b.Breaks r ↔ b.kind.Unsearchable v := by
      refine ⟨?_, fun unsearchable => .inr ⟨v, holds, unsearchable⟩⟩
      rintro (deep | ⟨w, also, unsearchable⟩)
      · exact absurd deep holds.not_tooDeep
      · exact holds.unique also ▸ unsearchable
    rw [breaks, unsearchable_iff]
    obtain ⟨f, kind, read⟩ := b.readReply_of_body body
    cases reply : b.kind.reply? v with
    | some content =>
      rw [reply] at read
      exact .inl ⟨nofun, v, content, holds, reply, read⟩
    | none =>
      rw [reply] at read
      by_cases gemini : b.kind = .gemini
      · dsimp only at read
        rw [if_pos gemini] at read
        exact .inr (.inl ⟨⟨gemini, rfl⟩, _, read⟩)
      · dsimp only at read
        rw [if_neg gemini] at read
        refine .inr (.inr ⟨fun broken => gemini broken.1, fun w also => ?_, f, read, kind⟩)
        rw [← holds.unique also, reply]
  · exact .inr (.inl ⟨.inl deep, _, failed body⟩)
  · refine .inr (.inr ⟨?_, fun v holds => absurd holds (empty v), f, failed body, kind⟩)
    rintro (deep | ⟨v, holds, -⟩)
    · exact shallow deep
    · exact empty v holds

/-- What comes of a query that is answered by some response all at once. -/
def chat (q : Query) (r : Response) : Except Failure Json :=
  match b.request q false with
  | .error e => .error e
  | .ok _ => b.readReply r

/-- The query cannot be written, or the response breaks the reading of the reply. -/
def ChatBreaks (q : Query) (r : Response) : Prop := b.Keyed ∧ (b.Unposted q false ∨ b.Breaks r)

/-- A query gives what the response has in the place of the reply, breaks down, or fails in a fault of the backend. -/
theorem chat_cases (q : Query) (r : Response) :
    (b.Keyed ∧ ¬ b.Unposted q false ∧ ¬ b.Breaks r ∧
      ∃ v content, r.Holds v ∧ b.kind.reply? v = some content ∧ b.chat q r = .ok content) ∨
    (b.ChatBreaks q r ∧ ∃ e, b.chat q r = .error (.breakdown e)) ∨
    (¬ b.ChatBreaks q r ∧ (b.Keyed → ∀ v, r.Holds v → b.kind.reply? v = none) ∧
      ∃ f, b.chat q r = .error (.fault f) ∧ f.kind.isProvider = true) := by
  unfold chat ChatBreaks
  obtain ⟨unkeyed, missing⟩ | ⟨keyed, unposted, e, failed⟩ | ⟨keyed, posted, request, sent⟩ := b.request_outcome q false
  · rw [missing]
    exact .inr (.inr ⟨fun broken => unkeyed broken.1, fun keyed => absurd keyed unkeyed, _, rfl, rfl⟩)
  · rw [failed]
    exact .inr (.inl ⟨⟨keyed, .inl unposted⟩, e, rfl⟩)
  · rw [sent]
    obtain ⟨fine, found⟩ | ⟨breaks, broken⟩ | ⟨fine, absent, faulty⟩ := b.readReply_cases r
    · exact .inl ⟨keyed, posted, fine, found⟩
    · exact .inr (.inl ⟨⟨keyed, .inr breaks⟩, broken⟩)
    · refine .inr (.inr ⟨?_, fun _ => absent, faulty⟩)
      rintro ⟨-, unposted | breaks⟩
      · exact posted unposted
      · exact fine breaks

end Backend

namespace InstalledModel

/-- A value lists these models. -/
def Lists (v : Json) (models : List InstalledModel) : Prop :=
  ∃ fields items, v = .obj fields ∧ listed ((OrderedMap.get? fields "models").getD (.arr [])) = .ok items ∧
    (Checked.elements read 0 items).result = .ok models

/-- In the place of the models, a value has null, a truth value or a number. -/
def Unlistable (v : Json) : Prop :=
  ∃ fields found, v = .obj fields ∧ OrderedMap.get? fields "models" = some found ∧
    (found = .null ∨ (∃ b, found = .bool b) ∨ (∃ n, found = .int n) ∨ ∃ x, found = .float x)

theorem Lists.unique {v : Json} {models others : List InstalledModel} (lists : Lists v models) (also : Lists v others) :
    models = others := by
  obtain ⟨fields, items, rfl, listed, read⟩ := lists
  obtain ⟨fields', items', same, listed', read'⟩ := also
  obtain rfl := Json.obj.inj same
  obtain rfl := Except.ok.inj (listed.symm.trans listed')
  exact Except.ok.inj (read.symm.trans read')

theorem listed_eq_error_iff {v : Json} {b : Breakdown} : listed v = .error b ↔
    b = .wrongType ∧ (v = .null ∨ (∃ b, v = .bool b) ∨ (∃ n, v = .int n) ∨ ∃ x, v = .float x) := by
  cases v <;> simp [listed, eq_comm]

theorem unlistable_obj_iff {fields : Json.Fields} : Unlistable (.obj fields) ↔
    listed ((OrderedMap.get? fields "models").getD (.arr [])) = .error .wrongType := by
  unfold Unlistable
  rw [listed_eq_error_iff]
  cases found : OrderedMap.get? fields "models" with
  | none => simp [found]
  | some v => simp [found]

/-- The fault of a response that lists no models. -/
def noModels : Fault :=
  Fault.badResponse (some BackendKind.ollama.name) "Unexpected /api/tags response: not a list of models"

theorem readList_obj (fields : Json.Fields) : readList (.obj fields) =
    match listed ((OrderedMap.get? fields "models").getD (.arr [])) with
    | .error e => .error (.breakdown e)
    | .ok items => (Checked.elements read 0 items).result.mapError fun _ => .fault noModels := by
  rw [readList]
  cases listed ((OrderedMap.get? fields "models").getD (.arr [])) with
  | error e => rfl
  | ok items =>
    dsimp only
    cases (Checked.elements read 0 items).result <;> rfl

theorem readList_other {v : Json} (other : ∀ fields, v ≠ .obj fields) : readList v = .error (.fault noModels) := by
  cases v with
  | obj fields => exact absurd rfl (other fields)
  | _ => rfl

/-- To read a list gives the models in it, breaks down where there is none, or fails in a fault of the backend. -/
theorem readList_cases (v : Json) :
    (¬ Unlistable v ∧ ∃ models, Lists v models ∧ readList v = .ok models) ∨
    (Unlistable v ∧ ∃ e, readList v = .error (.breakdown e)) ∨
    (¬ Unlistable v ∧ (∀ models, ¬ Lists v models) ∧
      ∃ f, readList v = .error (.fault f) ∧ f.kind.isProvider = true) := by
  by_cases object : ∃ fields, v = .obj fields
  · obtain ⟨fields, rfl⟩ := object
    rw [unlistable_obj_iff, readList_obj]
    cases items : listed ((OrderedMap.get? fields "models").getD (.arr [])) with
    | error e =>
      obtain ⟨rfl, -⟩ := listed_eq_error_iff.mp items
      exact .inr (.inl ⟨rfl, _, rfl⟩)
    | ok elements =>
      dsimp only
      cases made : (Checked.elements read 0 elements).result with
      | ok models => exact .inl ⟨nofun, models, ⟨fields, elements, rfl, items, made⟩, rfl⟩
      | error issues =>
        refine .inr (.inr ⟨nofun, ?_, noModels, rfl, rfl⟩)
        rintro models ⟨others, also, same, listed, read⟩
        obtain rfl := Json.obj.inj same
        obtain rfl := Except.ok.inj (items.symm.trans listed)
        cases made.symm.trans read
  · rw [not_exists] at object
    refine .inr (.inr ⟨?_, ?_, noModels, readList_other object, rfl⟩)
    · rintro ⟨fields, -, same, -⟩
      exact object fields same
    · rintro models ⟨fields, -, same, -⟩
      exact object fields same

end InstalledModel

namespace Backend
variable (b : Backend)

/-- What comes of a query for the installed models that is answered by some response. -/
def models (r : Response) : Except Failure (List InstalledModel) :=
  match b.listRequest with
  | .error e => .error e
  | .ok _ => b.readModels r

/-- The models cannot be asked for, since the address is no URL, or the response breaks the reading of their list. -/
def ListBreaks (r : Response) : Prop :=
  Url.read? (b.address ++ "/api/tags").toList = none ∨ r.TooDeep ∨ ∃ v, r.Holds v ∧ InstalledModel.Unlistable v

theorem listRequest_cases :
    (Url.read? (b.address ++ "/api/tags").toList = none ∧ b.listRequest = .error (.breakdown .badAddress)) ∨
    (Url.read? (b.address ++ "/api/tags").toList ≠ none ∧ ∃ request, b.listRequest = .ok request) := by
  unfold listRequest Request.build
  cases Url.read? (b.address ++ "/api/tags").toList with
  | none => exact .inl ⟨rfl, rfl⟩
  | some url => exact .inr ⟨nofun, _, rfl⟩

/-- A query for the models gives those that the response lists, breaks down, or fails in a fault of the backend. -/
theorem models_cases (r : Response) :
    (¬ b.ListBreaks r ∧ ∃ v found, r.Holds v ∧ InstalledModel.Lists v found ∧ b.models r = .ok found) ∨
    (b.ListBreaks r ∧ ∃ e, b.models r = .error (.breakdown e)) ∨
    (¬ b.ListBreaks r ∧ (∀ v found, r.Holds v → ¬ InstalledModel.Lists v found) ∧
      ∃ f, b.models r = .error (.fault f) ∧ f.kind.isProvider = true) := by
  unfold models ListBreaks
  obtain ⟨unreadable, failed⟩ | ⟨readable, request, sent⟩ := b.listRequest_cases
  · rw [failed]
    exact .inr (.inl ⟨.inl unreadable, _, rfl⟩)
  rw [sent]
  simp only [readable, false_or]
  have read : b.readModels r = b.readBody r >>= InstalledModel.readList := rfl
  rw [read]
  obtain ⟨v, holds, body⟩ | ⟨deep, body⟩ | ⟨shallow, empty, f, body, kind⟩ := b.readBody_cases r
  · rw [body]
    have breaks : (r.TooDeep ∨ ∃ v, r.Holds v ∧ InstalledModel.Unlistable v) ↔ InstalledModel.Unlistable v := by
      refine ⟨?_, fun unlistable => .inr ⟨v, holds, unlistable⟩⟩
      rintro (deep | ⟨w, also, unlistable⟩)
      · exact absurd deep holds.not_tooDeep
      · exact holds.unique also ▸ unlistable
    rw [breaks]
    obtain ⟨fine, found, lists, made⟩ | broken | ⟨fine, absent, faulty⟩ := InstalledModel.readList_cases v
    · exact .inl ⟨fine, v, found, holds, lists, made⟩
    · exact .inr (.inl broken)
    · refine .inr (.inr ⟨fine, fun w found also => ?_, faulty⟩)
      exact holds.unique also ▸ absent found
  · rw [body]
    exact .inr (.inl ⟨.inl deep, _, rfl⟩)
  · rw [body]
    refine .inr (.inr ⟨?_, fun v _ holds => absurd holds (empty v), f, rfl, kind⟩)
    rintro (deep | ⟨v, holds, -⟩)
    · exact shallow deep
    · exact empty v holds

/-- An outcome is a result of some kind, or a fault of a backend. -/
def Answered {α : Type} (Result : α → Prop) : Except Failure α → Prop
  | .ok a => Result a
  | .error (.fault f) => f.kind.isProvider = true
  | .error _ => False

theorem not_breaks_of_reply {r : Response} {v content : Json} (holds : r.Holds v)
    (reply : b.kind.reply? v = some content) : ¬ b.Breaks r := by
  rintro (deep | ⟨w, also, unsearchable⟩)
  · exact holds.not_tooDeep deep
  · obtain rfl := holds.unique also
    obtain ⟨-, absent⟩ := unsearchable_iff.mp unsearchable
    cases reply.symm.trans absent

/-- A query gives the value that the response has in the place of the reply. -/
theorem chat_eq_ok_iff {q : Query} {r : Response} {content : Json} : b.chat q r = .ok content ↔
    b.Keyed ∧ ¬ b.Unposted q false ∧ ∃ v, r.Holds v ∧ b.kind.reply? v = some content := by
  obtain ⟨keyed, posted, fine, v, found, holds, reply, done⟩ | ⟨breaks, e, broken⟩ | ⟨fine, absent, f, faulty, kind⟩ :=
    b.chat_cases q r
  · rw [done]
    constructor
    · rintro ⟨⟩
      exact ⟨keyed, posted, v, holds, reply⟩
    · rintro ⟨-, -, w, also, reply'⟩
      obtain rfl := holds.unique also
      exact congrArg Except.ok (Option.some.inj (reply.symm.trans reply'))
  · rw [broken]
    refine iff_of_false nofun ?_
    rintro ⟨-, posted, v, holds, reply⟩
    exact breaks.2.elim posted (b.not_breaks_of_reply holds reply)
  · rw [faulty]
    refine iff_of_false nofun ?_
    rintro ⟨keyed, -, v, holds, reply⟩
    cases reply.symm.trans (absent keyed v holds)

theorem chat_answered_iff (q : Query) (r : Response) : Answered (fun v => ∃ s, v = .str s) (b.chat q r) ↔
    ¬ b.ChatBreaks q r ∧ ¬ (b.Keyed ∧ b.Mistypes r) := by
  obtain ⟨keyed, posted, fine, v, found, holds, reply, done⟩ | ⟨breaks, e, broken⟩ | ⟨fine, absent, f, faulty, kind⟩ :=
    b.chat_cases q r
  · rw [done]
    have unbroken : ¬ b.ChatBreaks q r := fun breaks => breaks.2.elim posted fine
    constructor
    · rintro ⟨s, rfl⟩
      refine ⟨unbroken, ?_⟩
      rintro ⟨-, w, found, also, reply', other⟩
      obtain rfl := holds.unique also
      obtain rfl := Option.some.inj (reply.symm.trans reply')
      exact other s rfl
    · rintro ⟨-, typed⟩
      refine Classical.byContradiction fun other => typed ⟨keyed, v, found, holds, reply, ?_⟩
      exact fun s same => other ⟨s, same⟩
  · rw [broken]
    exact iff_of_false id fun fine => fine.1 breaks
  · rw [faulty]
    refine iff_of_true kind ⟨fine, ?_⟩
    rintro ⟨keyed, v, found, holds, reply, -⟩
    cases reply.symm.trans (absent keyed v holds)

/-- A query for the models gives those that the response lists. -/
theorem models_eq_ok_iff {r : Response} {found : List InstalledModel} : b.models r = .ok found ↔
    ¬ b.ListBreaks r ∧ ∃ v, r.Holds v ∧ InstalledModel.Lists v found := by
  obtain ⟨fine, v, found', holds, lists, done⟩ | ⟨breaks, e, broken⟩ | ⟨fine, absent, f, faulty, kind⟩ :=
    b.models_cases r
  · rw [done]
    constructor
    · rintro ⟨⟩
      exact ⟨fine, v, holds, lists⟩
    · rintro ⟨-, w, also, lists'⟩
      obtain rfl := holds.unique also
      exact congrArg Except.ok (lists.unique lists')
  · rw [broken]
    exact iff_of_false nofun fun right => right.1 breaks
  · rw [faulty]
    refine iff_of_false nofun ?_
    rintro ⟨-, v, holds, lists⟩
    exact absent v found holds lists

theorem models_answered_iff (r : Response) : Answered (fun _ => True) (b.models r) ↔ ¬ b.ListBreaks r := by
  obtain ⟨fine, v, found, -, -, done⟩ | ⟨breaks, e, broken⟩ | ⟨fine, -, f, faulty, kind⟩ := b.models_cases r
  · rw [done]
    exact iff_of_true trivial fine
  · rw [broken]
    exact iff_of_false id fun fine => fine breaks
  · rw [faulty]
    exact iff_of_true kind fine

/-- A query is answered with a text or a fault of the backend exactly unless it cannot be written, or the response is
nested too deep, has no lists to look for the texts in, or holds another value in the place of the reply. What comes is
the value in that place. A query for the models is answered with a list or a fault exactly unless its address is no URL,
or the response is nested too deep or has null, a truth value or a number in the place of the models. -/
theorem chat_and_models_answered_iff (q : Query) (r : Response) :
    (Answered (fun v => ∃ s, v = .str s) (b.chat q r) ↔ ¬ b.ChatBreaks q r ∧ ¬ (b.Keyed ∧ b.Mistypes r)) ∧
    (∀ content, b.chat q r = .ok content ↔
      b.Keyed ∧ ¬ b.Unposted q false ∧ ∃ v, r.Holds v ∧ b.kind.reply? v = some content) ∧
    (Answered (fun _ => True) (b.models r) ↔ ¬ b.ListBreaks r) ∧
    (∀ found, b.models r = .ok found ↔ ¬ b.ListBreaks r ∧ ∃ v, r.Holds v ∧ InstalledModel.Lists v found) :=
  ⟨b.chat_answered_iff q r, fun _ => b.chat_eq_ok_iff, b.models_answered_iff r, fun _ => b.models_eq_ok_iff⟩

/-- A reply that is a number, and a list of models that is null. -/
theorem chat_replies_with_number :
    let b : Backend := { kind := .openai, address := "http://h", key := some "k" }
    let q : Query := { model := "m", messages := [⟨.user, "hi"⟩] }
    let r : Response := .answered 200
      [.bytes (Utf8.encode "\x7b\"choices\": [\x7b\"message\": \x7b\"content\": 5\x7d\x7d]\x7d".toList)]
    let s : Response := .answered 200 [.bytes (Utf8.encode "\x7b\"models\": null\x7d".toList)]
    b.chat q r = .ok (.int 5) ∧ ¬ Answered (fun v => ∃ s, v = .str s) (b.chat q r) ∧
      b.models s = .error (.breakdown .wrongType) ∧ ¬ Answered (fun _ => True) (b.models s) := by
  refine ⟨rfl, ?_, rfl, fun answered => answered⟩
  intro answered
  obtain ⟨s, same⟩ := (show ∃ s, Json.int 5 = .str s from answered)
  cases same

end Backend
end CodeAgent
