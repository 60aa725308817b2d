import CodeAgent.Proofs.Json.Limits
import CodeAgent.Proofs.Json.RoundTrip
import CodeAgent.Proofs.Text.Blank
import CodeAgent.Proofs.Text.Search
import CodeAgent.Proofs.Text.Utf8
import CodeAgent.Proofs.Wire.LineChunks

/-! Streams whose lines were written to carry texts: the texts come out as they went in, whatever is in them. -/
namespace CodeAgent
open CodeAgent.Text

namespace Text
namespace Utf8

theorem encode_append (cs ds : List Char) : encode (cs ++ ds) = encode cs ++ encode ds := List.flatMap_append

/-- Only a line feed is encoded with a line feed. -/
theorem feed_notMem_encode {cs : List Char} (unbroken : '\n' ∉ cs) : (10 : UInt8) ∉ encode cs := by
  have byte {n : Nat} (large : 10 < n ∧ n < 256) : (10 : UInt8) ≠ UInt8.ofNat n := by
    intro same
    have same := congrArg UInt8.toNat same
    rw [UInt8.toNat_ofNat', Nat.mod_eq_of_lt large.2] at same
    change 10 = n at same
    omega
  intro mem
  obtain ⟨c, own, mem⟩ := List.mem_flatMap.mp mem
  have valid : c.val.toNat < 0x110000 := by
    have valid := c.valid
    simp only [UInt32.isValidChar, Nat.isValidChar] at valid
    omega
  rw [String.utf8EncodeChar] at mem
  split at mem
  · next small =>
    have same := congrArg UInt8.toNat (List.mem_singleton.mp mem)
    rw [UInt8.toNat_ofNat', Nat.mod_eq_of_lt (by omega)] at same
    have feed : c = '\n' := Char.ext (UInt32.toNat_inj.mp same.symm)
    exact unbroken (feed ▸ own)
  split at mem
  · simp only [List.mem_cons, List.not_mem_nil, or_false] at mem
    obtain same | same := mem
    all_goals exact byte (by omega) same
  split at mem
  · simp only [List.mem_cons, List.not_mem_nil, or_false] at mem
    obtain same | same | same := mem
    all_goals exact byte (by omega) same
  · simp only [List.mem_cons, List.not_mem_nil, or_false] at mem
    obtain same | same | same | same := mem
    all_goals exact byte (by omega) same

/-- An ASCII character is decoded first, whatever follows. -/
theorem exists_decode_cons {b : UInt8} (ascii : b.toNat < 0x80) (bs : Bytes) :
    ∃ more, decode (b :: bs) = Char.ofNat b.toNat :: more := by
  rw [decode, run_small ascii]
  exact ⟨_, rfl⟩

end Utf8

end Text

namespace Json

theorem get?_eq_map_sorted (v : Json) (key : String) : (sorted v).get? key = (v.get? key).map sorted := by
  cases v with
  | obj fields => exact get?_sorted fields key
  | _ => rfl

theorem str?_sorted (v : Json) : (sorted v).str? = v.str? := by cases v <;> rfl

theorem exists_bracketed (style : Style) (level : Nat) (left right : Char) (items : List (List Char)) :
    ∃ inner, bracketed style level left right items = left :: inner ++ [right] := by
  unfold bracketed
  split
  · exact ⟨[], rfl⟩
  split
  · exact ⟨_, rfl⟩
  · exact ⟨_, rfl⟩

end Json

namespace Wire

theorem messageText_sorted (v : Json) : messageText (Json.sorted v) = messageText v := by
  rw [messageText, messageText, Json.get?_eq_map_sorted]
  cases v.get? "message" with
  | none => rfl
  | some m =>
    simp only [Option.map_some, Option.bind_some, Json.get?_eq_map_sorted]
    cases m.get? "content" with
    | none => rfl
    | some content => exact Json.str?_sorted content

theorem firstChoice_sorted (v : Json) : firstChoice (Json.sorted v) = (firstChoice v).map Json.sorted := by
  rw [firstChoice, firstChoice, Json.get?_eq_map_sorted]
  cases v.get? "choices" with
  | none => rfl
  | some choices =>
    cases choices with
    | arr items => cases items <;> rfl
    | _ => rfl

theorem eventText_sorted (v : Json) : eventText (Json.sorted v) = eventText v := by
  rw [eventText, eventText, firstChoice_sorted]
  cases firstChoice v with
  | none => rfl
  | some choice =>
    simp only [Option.map_some, Option.bind_some, Json.get?_eq_map_sorted]
    cases choice.get? "delta" with
    | none => rfl
    | some delta =>
      simp only [Option.map_some, Option.bind_some, Json.get?_eq_map_sorted]
      cases delta.get? "content" with
      | none => rfl
      | some content => exact Json.str?_sorted content

/-- An object that carries a text, written on one line: with its members in order or as given, characters beyond ASCII
escaped or as they are, and white space after commas and colons. What it has besides is within the limits for what is
read. -/
structure CarriedText (textOf : Json → Option String) where
  style : Json.Style
  straight : style.asGiven.Straight
  comma_unbroken : '\n' ∉ style.afterItem
  colon_unbroken : '\n' ∉ style.afterKey
  fields : Json.Fields
  fits : Json.Fits Json.maxDepth (.obj fields)
  text : String
  carries : textOf (.obj fields) = some text

namespace CarriedText
variable {textOf : Json → Option String} (t : CarriedText textOf)

/-- The characters of the line. -/
def chars : List Char := Json.render t.style 0 (.obj t.fields)

/-- The object with its members in the order in which they are written. -/
def laid : Json := if t.style.sorted then Json.sorted (.obj t.fields) else .obj t.fields

theorem chars_eq : t.chars = Json.render t.style.asGiven 0 t.laid := by
  unfold chars laid
  cases sorts : t.style.sorted with
  | true => exact Json.render_sorted sorts _ 0
  | false =>
    have same : t.style.asGiven = t.style := by rw [Json.Style.asGiven, ← sorts]
    rw [same]
    rfl

theorem fits_laid : Json.Fits Json.maxDepth t.laid := by
  unfold laid
  split
  · exact Json.fits_sorted_iff.mpr t.fits
  · exact t.fits

theorem feed_notMem_chars : '\n' ∉ t.chars := by
  rw [chars_eq]
  exact Json.no_feed_render t.straight.one_line t.comma_unbroken t.colon_unbroken rfl t.fits_laid 0

theorem exists_chars_eq : ∃ inner, t.chars = '\x7b' :: inner ++ ['\x7d'] := by
  rw [chars, Json.render]
  exact Json.exists_bracketed _ _ _ _ _

/-- White space around the text of the object is cut off, and nothing else. -/
theorem trimChars_append (before : List Char) (first : ∀ c ∈ before.head?, isBlank c = false) {white : List Char}
    (cut : ∀ c ∈ white, isBlank c = true) : trimChars (before ++ t.chars ++ white) = before ++ t.chars := by
  obtain ⟨inner, text⟩ := t.exists_chars_eq
  refine trimBy_append (fun c same => ?_) (fun c same => ?_) cut
  · cases before with
    | nil =>
      rw [text] at same
      cases same
      rfl
    | cons d before => exact first c same
  · rw [text, ← List.append_assoc, List.getLast?_concat] at same
    cases same
    rfl

/-- The object is read back, with the text that it carries. -/
theorem exists_readJson (settled : ∀ v, textOf (Json.sorted v) = textOf v) :
    ∃ v, readJson t.chars = .ok (some v) ∧ textOf v = some t.text := by
  have read : Json.readChars? t.chars = .ok t.laid := by
    have value := Json.read_write t.straight.spaced t.fits_laid
    rwa [Json.read, Json.write, String.toList_ofList, ← chars_eq] at value
  refine ⟨t.laid, by rw [readJson, read], ?_⟩
  rw [← t.carries]
  unfold laid
  split
  · exact settled _
  · rfl

end CarriedText

/-- A line of a stream: an object with a message, or an event with a choice after its mark. Among events there can also
be comments, names of events and the mark that ends the stream, and between any lines blank ones. -/
inductive WrittenLine : LineFormat → Type
  | object (message : CarriedText messageText) : WrittenLine .objects
  | event (choice : CarriedText eventText) : WrittenLine .events
  | comment (rest : Bytes) (unbroken : lineFeed ∉ rest) : WrittenLine .events
  | eventName (rest : Bytes) (unbroken : lineFeed ∉ rest) : WrittenLine .events
  | done : WrittenLine .events
  | blank {f : LineFormat} (space : List Char) (white : ∀ c ∈ space, isBlank c = true) (unbroken : '\n' ∉ space) :
    WrittenLine f

namespace WrittenLine
variable {f : LineFormat}

/-- The bytes of a line without its end. -/
def bytes : WrittenLine f → Bytes
  | object message => Utf8.encode message.chars
  | event choice => Utf8.encode (dataMark ++ choice.chars)
  | comment rest _ => Utf8.encode [':'] ++ rest
  | eventName rest _ => Utf8.encode ['e', 'v', 'e', 'n', 't', ':'] ++ rest
  | done => Utf8.encode (dataMark ++ doneMark)
  | blank space _ _ => Utf8.encode space

/-- The text that a line carries, if any. -/
def texts : WrittenLine f → List String
  | object message => [message.text]
  | event choice => [choice.text]
  | _ => []

theorem feed_notMem_bytes (line : WrittenLine f) : lineFeed ∉ line.bytes := by
  cases line with
  | object message => exact Utf8.feed_notMem_encode message.feed_notMem_chars
  | event choice =>
    refine Utf8.feed_notMem_encode fun mem => ?_
    obtain mark | mem := List.mem_append.mp mem
    · exact absurd mark (by decide)
    · exact choice.feed_notMem_chars mem
  | comment rest unbroken => exact fun mem => (List.mem_append.mp mem).elim (by decide) unbroken
  | eventName rest unbroken => exact fun mem => (List.mem_append.mp mem).elim (by decide) unbroken
  | done => decide
  | blank space white unbroken => exact Utf8.feed_notMem_encode unbroken

/-- The line of an event stream that starts with a character other than that of the mark says nothing. -/
theorem piecesOf_other {b : UInt8} (ascii : b.toNat < 0x80) (solid : isBlank (Char.ofNat b.toNat) = false)
    (other : 'd' ≠ Char.ofNat b.toNat) (bs : Bytes) : LineFormat.events.piecesOf (b :: bs) = .ok [] := by
  obtain ⟨decoded, text⟩ := Utf8.exists_decode_cons ascii bs
  have trimmed := trimBy_cons_of_neg solid decoded
  rw [LineFormat.piecesOf, text, trimChars, trimmed]
  dsimp only
  rw [LineFormat.textOf, dataMark, dropStart?_cons_of_ne other]
  rfl

theorem piecesOf_encode {cs white : List Char} (filled : cs ≠ []) (trimmed : trimChars (cs ++ white) = cs)
    (text? : Option String) (told : f.textOf cs = .ok text?) :
    f.piecesOf (Utf8.encode cs ++ Utf8.encode white) = .ok (text?.toList.filter (· ≠ "")) := by
  rw [LineFormat.piecesOf, ← Utf8.encode_append, Utf8.decode_encode, trimmed]
  cases cs with
  | nil => exact absurd rfl filled
  | cons c cs =>
    dsimp only
    rw [told]
    cases text? with
    | none => rfl
    | some text => by_cases empty : text = "" <;> simp [empty, bind, Except.bind, pure, Except.pure]

/-- A line delivers the text that it carries, unless this is empty, also with white space after it. -/
theorem piecesOf_bytes (line : WrittenLine f) {white : List Char} (cut : ∀ c ∈ white, isBlank c = true) :
    f.piecesOf (line.bytes ++ Utf8.encode white) = .ok (line.texts.filter (· ≠ "")) := by
  cases line with
  | object message =>
    obtain ⟨inner, braced⟩ := message.exists_chars_eq
    obtain ⟨v, read, text⟩ := message.exists_readJson messageText_sorted
    refine piecesOf_encode (by simp [braced]) (message.trimChars_append [] nofun cut) (some _) ?_
    rw [LineFormat.textOf, List.nil_append, read, ← text]
    rfl
  | event choice =>
    obtain ⟨inner, braced⟩ := choice.exists_chars_eq
    obtain ⟨v, read, text⟩ := choice.exists_readJson eventText_sorted
    have solid : ∀ c ∈ dataMark.head?, isBlank c = false := fun c same => Option.some.inj same ▸ rfl
    refine piecesOf_encode (by simp [braced]) (choice.trimChars_append dataMark solid cut) (some _) ?_
    have own : trimChars choice.chars = choice.chars := by
      have alone := choice.trimChars_append [] nofun (List.forall_mem_nil _)
      rwa [List.append_nil] at alone
    have data : (choice.chars == doneMark) = false := by
      rw [braced]
      rfl
    rw [LineFormat.textOf, dropStart?_append]
    dsimp only
    rw [own, data, if_neg Bool.false_ne_true, read, ← text]
    rfl
  | comment rest =>
    have first : (comment rest ‹_›).bytes = 58 :: rest := rfl
    rw [first, List.cons_append]
    exact piecesOf_other (by decide) (by decide) (by decide) _
  | eventName rest =>
    have first : (eventName rest ‹_›).bytes = 101 :: ([118, 101, 110, 116, 58] ++ rest) := rfl
    rw [first, List.cons_append]
    exact piecesOf_other (by decide) (by decide) (by decide) _
  | done =>
    have trimmed : trimChars (dataMark ++ doneMark ++ white) = dataMark ++ doneMark :=
      trimBy_append (fun c same => Option.some.inj same ▸ rfl) (fun c same => Option.some.inj same ▸ rfl) cut
    exact piecesOf_encode (by decide) trimmed none rfl
  | blank space clear =>
    have all : ∀ c ∈ space ++ white, isBlank c = true := List.forall_mem_append.mpr ⟨clear, cut⟩
    have none : trimChars ([] ++ (space ++ white)) = [] := trimBy_append nofun nofun all
    change f.piecesOf (Utf8.encode space ++ Utf8.encode white) = _
    rw [LineFormat.piecesOf, ← Utf8.encode_append, Utf8.decode_encode, ← List.nil_append (space ++ white), none]
    rfl

end WrittenLine

/-- The end of a line. -/
inductive LineEnd where
  | feed
  | returnAndFeed
  deriving DecidableEq, Repr

/-- What stands before the line feed. -/
def LineEnd.before : LineEnd → List Char
  | feed => []
  | returnAndFeed => ['\r']

/-- The bytes of the end of a line. -/
def LineEnd.bytes (e : LineEnd) : Bytes := Utf8.encode e.before ++ [lineFeed]

/-- The lines of a stream, each with its end, and a last line without an end if there is one. -/
structure WrittenStream (f : LineFormat) where
  ended : List (WrittenLine f × LineEnd)
  last : Option (WrittenLine f) := none

namespace WrittenStream
variable {f : LineFormat}

def bytes (s : WrittenStream f) : Bytes :=
  s.ended.flatMap (fun l => l.1.bytes ++ l.2.bytes) ++ (s.last.map WrittenLine.bytes).getD []

/-- The texts that the lines carry, in order. -/
def texts (s : WrittenStream f) : List String :=
  s.ended.flatMap (·.1.texts) ++ (s.last.map WrittenLine.texts).getD []

theorem textsIn_bytes (s : WrittenStream f) : f.textsIn s.bytes = .ok (s.texts.filter (· ≠ "")) := by
  obtain ⟨ended, last⟩ := s
  induction ended with
  | nil =>
    change f.textsIn ((last.map WrittenLine.bytes).getD []) = .ok (((last.map WrittenLine.texts).getD []).filter _)
    cases last with
    | none => cases f <;> rfl
    | some line =>
      have alone : f.piecesOf (line.bytes ++ Utf8.encode []) = .ok (line.texts.filter (· ≠ "")) :=
        line.piecesOf_bytes nofun
      have none : Utf8.encode [] = [] := rfl
      rw [none, List.append_nil] at alone
      rw [Option.map_some, Option.getD_some, f.textsIn_single line.feed_notMem_bytes, alone]
      rfl
  | cons l ended ih =>
    obtain ⟨line, ending⟩ := l
    have clear : ∀ c ∈ ending.before, isBlank c = true := by
      cases ending with
      | feed => exact nofun
      | returnAndFeed => exact fun c mem => List.mem_singleton.mp mem ▸ rfl
    have unbroken : lineFeed ∉ line.bytes ++ Utf8.encode ending.before := by
      rw [List.mem_append, not_or]
      exact ⟨line.feed_notMem_bytes, by cases ending <;> decide⟩
    have whole : (WrittenStream.mk ((line, ending) :: ended) last).bytes =
        line.bytes ++ Utf8.encode ending.before ++ lineFeed :: (WrittenStream.mk ended last).bytes := by
      simp [bytes, LineEnd.bytes]
    have split : (WrittenStream.mk ((line, ending) :: ended) last).bytes.splitOn lineFeed =
        [line.bytes ++ Utf8.encode ending.before] ++ (WrittenStream.mk ended last).bytes.splitOn lineFeed := by
      rw [whole, List.splitOn_append_cons_self, List.splitOn_eq_singleton unbroken]
    have own : (WrittenStream.mk ((line, ending) :: ended) last).texts =
        line.texts ++ (WrittenStream.mk ended last).texts := by
      simp [texts]
    rw [f.textsIn_append split, ih, own, List.filter_append, List.mapM_cons, List.mapM_nil, line.piecesOf_bytes clear]
    simp [bind, Except.bind, pure, Except.pure, Except.map]

/-- Empty texts add nothing. -/
theorem join_filter_filled (texts : List String) : String.join (texts.filter (· ≠ "")) = String.join texts := by
  induction texts with
  | nil => rfl
  | cons text more ih =>
    by_cases empty : text = ""
    · simpa [empty, String.join_cons] using ih
    · simpa [empty, String.join_cons] using ih

/-- However the bytes of written lines are cut into chunks, the decoder gives the texts that the lines carry, in order
and without the empty ones, so that together they are the whole reply. -/
theorem outcome_written_lines (s : WrittenStream f) {chunks : List Bytes} (whole : chunks.flatten = s.bytes) :
    (Decoder.lines f []).outcome chunks = .ok (s.texts.filter (· ≠ "")) ∧
      String.join (s.texts.filter (· ≠ "")) = String.join s.texts := by
  refine ⟨?_, join_filter_filled s.texts⟩
  rw [outcome_lines_kept f List.not_mem_nil chunks, List.nil_append, whole, textsIn_bytes]
  rfl

/-- The event that adds a text. -/
def addingEvent (text : String) (asciiOnly : Bool) : CarriedText eventText where
  style := { Json.Style.line with asciiOnly }
  straight := ⟨rfl, rfl, ⟨[' '], rfl, by simp [Json.isGap]⟩, ⟨[' '], rfl, by simp [Json.isGap]⟩⟩
  comma_unbroken := (by decide : '\n' ∉ [',', ' '])
  colon_unbroken := (by decide : '\n' ∉ [':', ' '])
  fields := [("choices", .arr [.obj [("delta", .obj [("content", .str text)])]])]
  fits :=
    have shallow : Json.Fits 4 (.obj [("choices", .arr [.obj [("delta", .obj [("content", .str text)])]])]) := by
      simp [OrderedMap.keys]
    shallow.mono (by decide)
  text := text
  carries := rfl

/-- Events with texts that hold quotes, backslashes, line ends of several kinds and an event of their own, among lines
that say nothing. -/
def mixedEvents : WrittenStream .events where
  ended := [
    (.comment (Utf8.encode [' ', 'o', 'k']) (by decide), .returnAndFeed),
    (.event (addingEvent "a\"\\\n\u2028\x85" true), .feed),
    (.blank [' '] (by simp [isBlank]) (by decide), .returnAndFeed),
    (.eventName [255] (by decide), .feed),
    (.event (addingEvent "" true), .feed),
    (.event (addingEvent "\r\u2028\x85 data: [DONE]" false), .returnAndFeed)]
  last := some .done

/-- Byte for byte, and so with cuts within characters. -/
theorem outcome_written_lines_mixed :
    (Decoder.lines .events []).outcome (mixedEvents.bytes.map fun b => [b]) =
      .ok ["a\"\\\n\u2028\x85", "\r\u2028\x85 data: [DONE]"] := by
  have cut : (mixedEvents.bytes.map fun b => [b]).flatten = mixedEvents.bytes := by
    rw [← List.flatMap_def, List.flatMap_singleton']
  rw [(outcome_written_lines mixedEvents cut).1]
  rfl

end WrittenStream

end Wire
end CodeAgent
