import Mathlib.Tactic.SplitIfs
import CodeAgent.Proofs.Text.Utf8
import CodeAgent.Proofs.Wire.LineChunks

/-! Streams of values: only the characters of the stream count, and they do not depend on where its
bytes were cut. -/
namespace CodeAgent.Wire
open CodeAgent.Text

namespace Scan

theorem between_pending (s : Scan) (p : Utf8.Pending) (c : Char) :
    { s with pending := p }.between c = { s.between c with pending := p } := by
  unfold between
  split_ifs <;> rfl

theorem insideString_pending (s : Scan) (p : Utf8.Pending) (c : Char) :
    { s with pending := p }.insideString c = { s.insideString c with pending := p } := by
  unfold insideString
  split_ifs <;> rfl

theorem inside_pending (s : Scan) (p : Utf8.Pending) (c : Char) :
    { s with pending := p }.inside c = ({ (s.inside c).1 with pending := p }, (s.inside c).2) := by
  unfold inside
  dsimp only
  by_cases quoted : s.inString
  · rw [if_pos quoted, if_pos quoted]
    exact congrArg (·, none) (insideString_pending { s with value := c :: s.value } p c)
  · rw [if_neg quoted, if_neg quoted]
    by_cases quote : c == '"'
    · rw [if_pos quote, if_pos quote]
    · rw [if_neg quote, if_neg quote]
      by_cases opening : opens c
      · rw [if_pos opening, if_pos opening]
      · rw [if_neg opening, if_neg opening]
        by_cases closing : closes c
        · rw [if_pos closing, if_pos closing]
          by_cases last : s.depth = 1
          · rw [if_pos last, if_pos last]
            rfl
          · rw [if_neg last, if_neg last]
        · rw [if_neg closing, if_neg closing]

theorem step_pending (s : Scan) (p : Utf8.Pending) (c : Char) :
    { s with pending := p }.step c = ({ (s.step c).1 with pending := p }, (s.step c).2) := by
  unfold step
  by_cases outside : s.depth = 0
  · rw [if_pos outside, if_pos outside, between_pending]
  · rw [if_neg outside, if_neg outside, inside_pending]

variable (read : TextReader)

/-- The bytes that a decoder waits for do not matter to the characters it has. -/
theorem run_pending (s : Scan) (p : Utf8.Pending) (cs : List Char) :
    { s with pending := p }.run read cs =
      ({ (s.run read cs).1 with pending := p }, (s.run read cs).2) := by
  induction cs generalizing s with
  | nil => rfl
  | cons c cs ih =>
    rw [run, run, step_pending]
    obtain ⟨next, value⟩ := s.step c
    cases value with
    | none => exact ih next
    | some value =>
      dsimp only
      cases read value with
      | error e => rfl
      | ok texts => rw [ih]

theorem run_append (s : Scan) (cs ds : List Char) : s.run read (cs ++ ds) =
    match s.run read cs with
    | (s, .error e) => (s, .error e)
    | (s, .ok texts) => ((s.run read ds).1, (s.run read ds).2.map (texts ++ ·)) := by
  induction cs generalizing s with
  | nil =>
    simp only [List.nil_append, run]
    obtain ⟨last, out⟩ := s.run read ds
    cases out <;> rfl
  | cons c cs ih =>
    rw [List.cons_append, run, run]
    obtain ⟨next, value⟩ := s.step c
    cases value with
    | none => exact ih next
    | some value =>
      dsimp only
      cases read value with
      | error e => rfl
      | ok texts =>
        dsimp only
        rw [ih]
        obtain ⟨middle, out⟩ := next.run read cs
        cases out with
        | error e => rfl
        | ok more =>
          dsimp only [Except.map]
          obtain ⟨last, out⟩ := middle.run read ds
          cases out with
          | error e => rfl
          | ok rest => simp

/-- The texts in characters from some state on, when the stream ends after them. -/
def conclude (s : Scan) (cs : List Char) : Except Failure (List String) :=
  match s.run read cs with
  | (_, .error e) => .error e
  | (s, .ok texts) =>
    if 0 < s.depth then .error (.fault (unfinished s.value.reverse)) else .ok texts

/-- The texts in chunks of bytes from some state on, when the stream ends after them. -/
def outcome (s : Scan) : List Bytes → Except Failure (List String)
  | [] => (s.finish read).2
  | chunk :: chunks => do
    let texts ← (s.feed read chunk).2
    let rest ← outcome (s.feed read chunk).1 chunks
    return texts ++ rest

theorem conclude_pending (s : Scan) (p : Utf8.Pending) (cs : List Char) :
    { s with pending := p }.conclude read cs = s.conclude read cs := by
  rw [conclude, conclude, run_pending]
  obtain ⟨last, out⟩ := s.run read cs
  cases out <;> rfl

theorem conclude_append (s : Scan) (cs ds : List Char) : s.conclude read (cs ++ ds) = do
    let texts ← (s.run read cs).2
    let rest ← (s.run read cs).1.conclude read ds
    return texts ++ rest := by
  rw [conclude, run_append]
  obtain ⟨next, out⟩ := s.run read cs
  cases out with
  | error e => rfl
  | ok texts =>
    dsimp only
    rw [conclude]
    obtain ⟨last, out⟩ := next.run read ds
    cases out with
    | error e => rfl
    | ok rest =>
      simp only [Except.map]
      by_cases open' : 0 < last.depth
      · rw [if_pos open', if_pos open']
        rfl
      · rw [if_neg open', if_neg open']
        rfl

theorem finish_eq_conclude (s : Scan) :
    (s.finish read).2 = s.conclude read (Utf8.repair (Utf8.finish s.pending)) := by
  rw [← conclude_pending read s .start, finish, conclude]
  generalize run read _ (Utf8.repair (Utf8.finish s.pending)) = made
  obtain ⟨last, out⟩ := made
  cases out with
  | error e => rfl
  | ok texts =>
    dsimp only
    split_ifs <;> rfl

theorem feed_eq_run (s : Scan) (chunk : Bytes) : s.feed read chunk =
    ({ (s.run read (Utf8.repair (Utf8.run s.pending chunk).1)).1 with
        pending := (Utf8.run s.pending chunk).2 },
      (s.run read (Utf8.repair (Utf8.run s.pending chunk).1)).2) :=
  run_pending read s _ _

/-- Chunks give what the characters of their bytes give. -/
theorem outcome_eq_conclude (s : Scan) (chunks : List Bytes) :
    s.outcome read chunks = s.conclude read (Utf8.decodeFrom s.pending chunks.flatten) := by
  induction chunks generalizing s with
  | nil => exact finish_eq_conclude read s
  | cons chunk chunks ih =>
    rw [outcome, List.flatten_cons, Utf8.decodeFrom_append, conclude_append, feed_eq_run]
    dsimp only
    rw [ih, conclude_pending]

end Scan

theorem outcome_values (s : Scan) (chunks : List Bytes) :
    (Decoder.values s).outcome chunks = s.outcome Scan.textsOf chunks := by
  induction chunks generalizing s with
  | nil => exact Decoder.outcome_nil _
  | cons chunk chunks ih =>
    rw [Decoder.outcome_cons, Scan.outcome, ← ih]
    rfl

/-- Two ways to cut the same bytes give the same texts or the same failure, however values are read; the
characters are those of the bytes, with one replacement character for each maximal invalid part. -/
theorem values_outcome_eq {chunks others : List Bytes} (same : chunks.flatten = others.flatten) :
    (Decoder.values {}).outcome chunks = (Decoder.values {}).outcome others ∧
      (∀ read, Scan.outcome read {} chunks = Scan.outcome read {} others) ∧
      ∃ cs, Utf8.Decoded chunks.flatten cs ∧
        ∀ read, Scan.outcome read {} chunks = Scan.conclude read {} cs := by
  have equal (read : Scan.TextReader) : Scan.outcome read {} chunks = Scan.outcome read {} others := by
    rw [Scan.outcome_eq_conclude, Scan.outcome_eq_conclude, same]
  refine ⟨?_, equal, Utf8.decode chunks.flatten, Utf8.decoded_decode _, fun read => ?_⟩
  · rw [outcome_values, outcome_values, equal]
  · rw [Scan.outcome_eq_conclude]
    rfl

/-- A bracket and two bytes of a character that a third one breaks off, cut inside the character or not. -/
theorem values_outcome_eq_inside_char :
    let chunks : List Bytes := [[0x5b, 0xe2, 0x82], [0xff]]
    let others : List Bytes := [[0x5b, 0xe2], [], [0x82, 0xff]]
    chunks.flatten = others.flatten ∧
      (Decoder.values {}).outcome chunks = (Decoder.values {}).outcome others ∧
      (∀ read, Scan.outcome read {} chunks = Scan.outcome read {} others) ∧
      ∃ cs, Utf8.Decoded chunks.flatten cs ∧
        ∀ read, Scan.outcome read {} chunks = Scan.conclude read {} cs :=
  ⟨rfl, values_outcome_eq rfl⟩

end CodeAgent.Wire
