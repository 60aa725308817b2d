import CodeAgent.Backend.Basic
import CodeAgent.Proofs.Wire.ValueTexts

/-! A reply that is streamed, and the same reply all at once. -/
namespace CodeAgent
open CodeAgent.Text CodeAgent.Http CodeAgent.Wire

namespace Text.Utf8

/-- Only the character zero is encoded with a zero. -/
theorem encode_head_ne_zero {cs : List Char} (filled : ∀ c ∈ cs.head?, c ≠ '\x00') :
    ∀ b ∈ (encode cs).head?, b ≠ 0 := by
  cases cs with
  | nil => simp [encode]
  | cons c cs =>
    have first : c ≠ '\x00' := filled c rfl
    have parts : encode (c :: cs) = String.utf8EncodeChar c ++ encode cs := rfl
    have positive : c.val.toNat ≠ 0 := fun zero => first (Char.ext (UInt32.toNat_inj.mp zero))
    have byte {n : Nat} (small : 0 < n ∧ n < 256) : UInt8.ofNat n ≠ 0 := by
      intro zero
      have same := congrArg UInt8.toNat zero
      rw [UInt8.toNat_ofNat', Nat.mod_eq_of_lt small.2] at same
      exact absurd same (by simp; omega)
    intro b hb
    rw [parts, String.utf8EncodeChar] at hb
    split at hb
    · cases hb
      exact byte (by omega)
    split at hb
    · cases hb
      exact byte (by omega)
    split at hb
    · cases hb
      exact byte (by omega)
    · cases hb
      exact byte (by omega)

end Text.Utf8

namespace Json

private theorem isPrefixOf_of_ne {m a : UInt8} {mark bs : Bytes} (other : a ≠ m) :
    (m :: mark).isPrefixOf (a :: bs) = false := by
  rw [List.isPrefixOf_cons_cons, beq_false_of_ne other.symm, Bool.false_and]

theorem unmarkedText?_eq {a : UInt8} {bs : Bytes} (first : a ≠ 0) (second : ∀ b ∈ bs.head?, b ≠ 0) :
    unmarkedText? (a :: bs) = Utf8.decode? (a :: bs) := by
  unfold unmarkedText?
  split
  · next b c d more same =>
    cases same
    have filled := second b rfl
    simp [first, filled]
  · next b same =>
    cases same
    have filled := second b rfl
    simp [first, filled]
  · rfl

/-- The text of a document in UTF-8 that starts with an ASCII character, and goes on with no zero. -/
theorem textOfBytes?_ascii {a : UInt8} {bs : Bytes} (ascii : 0 < a.toNat ∧ a.toNat < 128)
    (filled : ∀ b ∈ bs.head?, b ≠ 0) : textOfBytes? (a :: bs) = Utf8.decode? (a :: bs) := by
  have first (x : UInt8) (other : x.toNat = 0 ∨ 128 ≤ x.toNat) : a ≠ x := by
    rintro rfl
    omega
  have marked (m : UInt8) (mark : Bytes) (other : m.toNat = 0 ∨ 128 ≤ m.toNat) :
      ¬ (m :: mark).isPrefixOf (a :: bs) = true := by
    rw [isPrefixOf_of_ne (first m other)]
    simp
  rw [textOfBytes?, if_neg (marked 0xff _ (by decide)), if_neg (marked 0 _ (by decide)),
    if_neg (marked 0xfe _ (by decide)), if_neg (marked 0xff _ (by decide)),
    if_neg (marked 0xef _ (by decide)), unmarkedText?_eq (first 0 (by decide)) filled]

theorem textOfBytes?_encode {c : Char} {cs : List Char} (ascii : 0 < c.toNat ∧ c.toNat < 128)
    (filled : ∀ d ∈ cs.head?, d ≠ '\x00') : textOfBytes? (Utf8.encode (c :: cs)) = some (c :: cs) := by
  have parts : Utf8.encode (c :: cs) = UInt8.ofNat c.toNat :: Utf8.encode cs := by
    have one : String.utf8EncodeChar c = [UInt8.ofNat c.toNat] := by
      rw [String.utf8EncodeChar]
      exact if_pos (by change c.toNat ≤ 127; omega)
    change String.utf8EncodeChar c ++ Utf8.encode cs = _
    rw [one]
    rfl
  have byte : (UInt8.ofNat c.toNat).toNat = c.toNat := by
    rw [UInt8.toNat_ofNat', Nat.mod_eq_of_lt (by omega)]
  rw [parts, textOfBytes?_ascii (by rw [byte]; exact ascii) (Utf8.encode_head_ne_zero filled), ← parts,
    Utf8.decode?_encode]

private theorem gap_char {c : Char} (white : isGap c = true) : (0 < c.toNat ∧ c.toNat < 128) ∧ c ≠ '\x00' := by
  simp only [isGap, Bool.or_eq_true, beq_iff_eq, or_assoc] at white
  obtain rfl | rfl | rfl | rfl := white <;> decide

/-- A text that is read as responses starts with two characters that show it to be in UTF-8. -/
theorem head_of_responses {cs : List Char} {v : Json} (read : readChars? cs = .ok v)
    (responses : IsResponses v) : ∃ c more, cs = c :: more ∧ (0 < c.toNat ∧ c.toNat < 128) ∧
      ∀ d ∈ more.head?, d ≠ '\x00' := by
  obtain ⟨rest, first, -⟩ := readChars?_cases read
  obtain ⟨gap, split, white⟩ := exists_gap cs
  obtain ⟨x, inner, shape, ascii, next⟩ : ∃ x inner, skipGap cs = x :: inner ∧
      (0 < x.toNat ∧ x.toNat < 128) ∧ ∀ d ∈ (skipGap inner).head?, d ≠ '\x00' := by
    obtain ⟨fields, rfl⟩ | ⟨items, rfl, objects⟩ := responses
    · obtain ⟨body, shape, -⟩ := readValue_object_text (Nat.le_refl _) first
      have deep : maxDepth = 979 + 1 := rfl
      rw [shape, deep] at first
      refine ⟨'{', _, shape, by decide, ?_⟩
      obtain ⟨brace, -⟩ | ⟨-, members, -, parts⟩ := readValue_object_cases first
      · rw [brace]
        simp
      · obtain ⟨text, _, _, _, _, _, quote, -⟩ := readMembers_cases parts
        rw [quote]
        simp
    · obtain ⟨depth, inner, deep, shape⟩ := readValue_array_text first
      rw [shape, deep] at first
      refine ⟨'[', inner, shape, by decide, ?_⟩
      obtain ⟨bracket, -⟩ | ⟨-, items', same, parts⟩ := readValue_array_cases first
      · rw [bracket]
        simp
      · cases same
        obtain ⟨item, tail, item_read, continued⟩ := readItems_cases parts
        have item_mem : item ∈ items := by
          obtain ⟨_, _, _, _, rfl⟩ | ⟨_, rfl⟩ := continued <;> simp
        obtain ⟨fields, rfl⟩ := objects item item_mem
        obtain ⟨body, brace, -⟩ := readValue_object_text (by omega) item_read
        rw [brace]
        simp
  have plain_gap {gap ds : List Char} (white : ∀ c ∈ gap, isGap c = true)
      (filled : ∀ d ∈ ds.head?, d ≠ '\x00') : ∀ d ∈ (gap ++ ds).head?, d ≠ '\x00' :=
    head_append (fun d hd => (gap_char (white d (List.mem_of_mem_head? hd))).2) filled
  cases gap with
  | nil =>
    obtain ⟨gap', split', white'⟩ := exists_gap inner
    refine ⟨x, inner, by rw [split, shape]; rfl, ascii, ?_⟩
    rw [split']
    exact plain_gap white' next
  | cons g gap =>
    refine ⟨g, gap ++ skipGap cs, split, (gap_char (white g (by simp))).1, ?_⟩
    refine plain_gap (fun c hc => white c (by simp [hc])) ?_
    rw [shape]
    rintro d hd rfl
    cases hd
    exact absurd ascii.1 (by decide)

end Json

namespace Http

theorem wholeBody_bytes (chunks : List Bytes) : wholeBody (chunks.map .bytes) = .ok chunks.flatten := by
  induction chunks with
  | nil => rfl
  | cons chunk chunks ih =>
    rw [List.map_cons, wholeBody, ih]
    rfl

end Http

namespace Backend

theorem readChunks_bytes (b : Backend) (d : Decoder) (chunks : List Bytes) :
    readStream.readChunks b d (chunks.map .bytes) = d.drain chunks := by
  induction chunks generalizing d with
  | nil => rfl
  | cons chunk chunks ih =>
    rw [List.map_cons, readStream.readChunks, Decoder.drain]
    obtain ⟨next, out⟩ := d.feed chunk
    cases out with
    | error e => rfl
    | ok texts =>
      dsimp only
      rw [ih]

/-- The pieces of text of a stream that ends, or the failure that breaks it off. -/
def streamed (b : Backend) (r : Response) : Except Failure (List String) :=
  match b.readStream r with
  | (texts, .ok ()) => .ok texts
  | (_, .error e) => .error e

theorem streamed_bytes (b : Backend) {status : Int} (success : isSuccess status = true)
    (chunks : List Bytes) :
    b.streamed (.answered status (chunks.map .bytes)) = b.kind.decoder.outcome chunks := by
  have drained : b.readStream (.answered status (chunks.map .bytes)) = b.kind.decoder.drain chunks := by
    rw [readStream, if_neg (by simp [success]), readChunks_bytes]
  rw [streamed, drained]
  rfl

theorem readBody_bytes (b : Backend) {status : Int} (success : isSuccess status = true)
    {chunks : List Bytes} {cs : List Char} {v : Json} (text : Json.textOfBytes? chunks.flatten = some cs)
    (read : Json.readChars? cs = .ok v) :
    b.readBody (.answered status (chunks.map .bytes)) = .ok v := by
  rw [readBody, wholeBody_bytes]
  dsimp only
  rw [if_neg (by simp [success]), text]
  dsimp only
  rw [read]

theorem readReply_gemini (b : Backend) (kind : b.kind = .gemini) {r : Response} {v : Json}
    (body : b.readBody r = .ok v) : b.readReply r =
      ((valueTexts v).mapError .breakdown).map fun texts => .str (String.join texts) := by
  unfold readReply
  rw [body, kind]
  cases read : valueTexts v <;> simp only [bind, Except.bind, read] <;> rfl

/-- Where a body is JSON of one response or of an array of them, the stream of its chunks, however they
are cut, delivers the text that the whole body holds, or both fail alike. -/
theorem streamed_eq_reply (b : Backend) (kind : b.kind = .gemini) {status : Int}
    (success : isSuccess status = true) {cs : List Char} {v : Json} (read : Json.readChars? cs = .ok v)
    (responses : IsResponses v) {chunks : List Bytes} (body : chunks.flatten = Utf8.encode cs) :
    (Decoder.values {}).outcome chunks = (valueTexts v).mapError .breakdown ∧
      b.streamed (.answered status (chunks.map .bytes)) = (valueTexts v).mapError .breakdown ∧
      b.readReply (.answered status (chunks.map .bytes)) =
        (b.streamed (.answered status (chunks.map .bytes))).map fun texts => .str (String.join texts) := by
  have outcome : (Decoder.values {}).outcome chunks = (valueTexts v).mapError .breakdown := by
    rw [outcome_values, Scan.outcome_eq_conclude, body]
    change Scan.conclude Scan.textsOf {} (Utf8.decode (Utf8.encode cs)) = _
    rw [Utf8.decode_encode, conclude_whole read responses]
  have decoder : b.kind.decoder = .values {} := by rw [kind]; rfl
  have delivered : b.streamed (.answered status (chunks.map .bytes)) = (valueTexts v).mapError .breakdown := by
    rw [streamed_bytes b success, decoder, outcome]
  refine ⟨outcome, delivered, ?_⟩
  obtain ⟨c, more, rfl, ascii, filled⟩ := Json.head_of_responses read responses
  have whole : Json.textOfBytes? chunks.flatten = some (c :: more) := by
    rw [body, Json.textOfBytes?_encode ascii filled]
  rw [delivered, readReply_gemini b kind (readBody_bytes b success whole read)]

/-- A response whose text holds a bracket, cut inside the character before it. -/
theorem streamed_eq_reply_cut :
    let b : Backend := { kind := .gemini, address := "" }
    let cs := "[\x7b\"candidates\": [\x7b\"content\": \x7b\"parts\": [\x7b\"text\": \"é]\"\x7d]\x7d\x7d]\x7d]".toList
    let v : Json := .arr [.obj [("candidates", .arr [.obj [("content",
      .obj [("parts", .arr [.obj [("text", .str "é]")]])])]])]]
    let chunks := [(Utf8.encode cs).take 51, (Utf8.encode cs).drop 51]
    (b.kind = .gemini ∧ isSuccess 200 = true ∧ Json.readChars? cs = .ok v ∧ IsResponses v ∧
        chunks.flatten = Utf8.encode cs) ∧
      (Decoder.values {}).outcome chunks = (valueTexts v).mapError .breakdown ∧
        b.streamed (.answered 200 (chunks.map .bytes)) = (valueTexts v).mapError .breakdown ∧
        b.readReply (.answered 200 (chunks.map .bytes)) =
          (b.streamed (.answered 200 (chunks.map .bytes))).map fun texts => .str (String.join texts) := by
  intro b cs v chunks
  have read : Json.readChars? cs = .ok v := rfl
  have responses : IsResponses v := .inr ⟨_, rfl, fun item mem => by
    cases List.mem_singleton.mp mem
    exact ⟨_, rfl⟩⟩
  have body : chunks.flatten = Utf8.encode cs := by
    simp [chunks]
  exact ⟨⟨rfl, rfl, read, responses, body⟩, streamed_eq_reply b rfl rfl read responses body⟩

end Backend
end CodeAgent
