import CodeAgent.Wire.Values

/-! What a decoder makes of a stream that arrives in chunks, and streams of lines: only the bytes count,
not where they were cut. -/
namespace CodeAgent.Wire
open CodeAgent.Text

namespace Decoder

/-- The pieces of text of a whole stream, or the failure that breaks it off. -/
def outcome (d : Decoder) (chunks : List Bytes) : Except Failure (List String) :=
  match d.drain chunks with
  | (texts, .ok ()) => .ok texts
  | (_, .error e) => .error e

theorem outcome_nil (d : Decoder) : d.outcome [] = d.finish.2 := by
  unfold outcome drain
  cases d.finish.2 <;> rfl

theorem outcome_cons (d : Decoder) (chunk : Bytes) (chunks : List Bytes) :
    d.outcome (chunk :: chunks) = do
      let texts ← (d.feed chunk).2
      let rest ← (d.feed chunk).1.outcome chunks
      return texts ++ rest := by
  rw [outcome, drain]
  obtain ⟨next, out⟩ := d.feed chunk
  cases out with
  | error e => rfl
  | ok texts =>
    simp only [outcome]
    obtain ⟨rest, ending⟩ := next.drain chunks
    cases ending <;> rfl

end Decoder

/-- The part after the last line feed holds none. -/
theorem splitLines_rest (bs : Bytes) : lineFeed ∉ (splitLines bs).2 := by
  induction bs with
  | nil => simp [splitLines]
  | cons b bs ih =>
    simp only [splitLines]
    by_cases hb : (b == lineFeed) = true
    · simpa only [hb, if_true] using ih
    · simp only [hb, Bool.false_eq_true, if_false]
      cases hs : (splitLines bs).1 with
      | nil =>
        intro mem
        obtain rfl | later := List.mem_cons.mp mem
        · exact hb (by simp)
        · exact ih later
      | cons line more => exact ih

/-- Splitting at line feeds may begin with the lines that are complete already. -/
theorem splitOn_append (bs more : Bytes) : (bs ++ more).splitOn lineFeed =
    (splitLines bs).1 ++ ((splitLines bs).2 ++ more).splitOn lineFeed := by
  induction bs with
  | nil => rfl
  | cons b bs ih =>
    rw [List.cons_append, List.splitOn_cons_eq_if_modifyHead, ih]
    simp only [splitLines]
    by_cases hb : (b == lineFeed) = true
    · simp only [hb, if_true, List.cons_append]
    · simp only [hb, Bool.false_eq_true, if_false]
      cases hs : (splitLines bs).1 with
      | nil =>
        rw [List.nil_append, List.nil_append, List.cons_append,
          List.splitOn_cons_eq_if_modifyHead, if_neg hb]
      | cons line lines => rfl

namespace LineFormat

/-- The pieces of text in a stream that is there as a whole: of each part between line feeds in order. -/
def textsIn (f : LineFormat) (stream : Bytes) : Except Breakdown (List String) :=
  ((stream.splitOn lineFeed).mapM f.piecesOf).map List.flatten

theorem textsIn_single (f : LineFormat) {line : Bytes} (one : lineFeed ∉ line) :
    f.textsIn line = f.piecesOf line := by
  rw [textsIn, List.splitOn_eq_singleton one, List.mapM_cons, List.mapM_nil]
  cases f.piecesOf line with
  | error b => rfl
  | ok pieces => simp [bind, Except.bind, pure, Except.pure, Except.map]

theorem textsIn_append (f : LineFormat) {stream bs : Bytes} {lines : List Bytes}
    (split : stream.splitOn lineFeed = lines ++ bs.splitOn lineFeed) :
    f.textsIn stream = do
      let texts ← (lines.mapM f.piecesOf).map List.flatten
      let rest ← f.textsIn bs
      return texts ++ rest := by
  rw [textsIn, textsIn, split, List.mapM_append]
  cases lines.mapM f.piecesOf with
  | error b => rfl
  | ok pieces =>
    cases (bs.splitOn lineFeed).mapM f.piecesOf with
    | error b => rfl
    | ok rest => simp [bind, Except.bind, pure, Except.pure, Except.map]

end LineFormat

/-- Reading lines in order stops at the first that breaks down. -/
theorem piecesOfLines_eq (f : LineFormat) (lines : List Bytes) :
    (piecesOfLines f lines).mapError Prod.fst = (lines.mapM f.piecesOf).map List.flatten := by
  induction lines with
  | nil => rfl
  | cons line lines ih =>
    rw [piecesOfLines, List.mapM_cons]
    cases f.piecesOf line with
    | error b => rfl
    | ok pieces =>
      cases hr : piecesOfLines f lines with
      | error e =>
        rw [hr] at ih
        cases hm : lines.mapM f.piecesOf with
        | error b =>
          rw [hm] at ih
          exact ih
        | ok rest =>
          rw [hm] at ih
          contradiction
      | ok texts =>
        rw [hr] at ih
        cases hm : lines.mapM f.piecesOf with
        | error b =>
          rw [hm] at ih
          contradiction
        | ok rest =>
          rw [hm] at ih
          cases ih
          rfl

theorem feedLines_texts (f : LineFormat) (kept chunk : Bytes) :
    (feedLines f kept chunk).2 = ((splitLines (kept ++ chunk)).1.mapM f.piecesOf).map List.flatten := by
  rw [← piecesOfLines_eq, feedLines]
  obtain ⟨lines, rest⟩ := splitLines (kept ++ chunk)
  dsimp only
  cases piecesOfLines f lines <;> rfl

theorem feedLines_kept {f : LineFormat} {kept chunk : Bytes} {texts : List String}
    (fed : (feedLines f kept chunk).2 = .ok texts) :
    (feedLines f kept chunk).1 = (splitLines (kept ++ chunk)).2 := by
  rw [feedLines] at fed ⊢
  generalize splitLines (kept ++ chunk) = split at fed ⊢
  obtain ⟨lines, rest⟩ := split
  dsimp only at fed ⊢
  cases hp : piecesOfLines f lines with
  | error e =>
    rw [hp] at fed
    contradiction
  | ok pieces => rfl

theorem finish_lines (f : LineFormat) (kept : Bytes) :
    (Decoder.lines f kept).finish.2 = (f.piecesOf kept).mapError .breakdown := rfl

/-- A decoder that kept the start of a line gives what that line and the rest of the stream give. -/
theorem outcome_lines_kept (f : LineFormat) {kept : Bytes} (begun : lineFeed ∉ kept)
    (chunks : List Bytes) : (Decoder.lines f kept).outcome chunks =
      (f.textsIn (kept ++ chunks.flatten)).mapError .breakdown := by
  induction chunks generalizing kept with
  | nil => rw [Decoder.outcome_nil, finish_lines, List.flatten_nil, List.append_nil, f.textsIn_single begun]
  | cons chunk chunks ih =>
    have split : (kept ++ (chunk :: chunks).flatten).splitOn lineFeed =
        (splitLines (kept ++ chunk)).1 ++
          ((splitLines (kept ++ chunk)).2 ++ chunks.flatten).splitOn lineFeed := by
      rw [← splitOn_append, List.flatten_cons, List.append_assoc]
    rw [Decoder.outcome_cons, f.textsIn_append split, ← feedLines_texts]
    have fed : ((Decoder.lines f kept).feed chunk).2 = (feedLines f kept chunk).2.mapError .breakdown := rfl
    have next : ((Decoder.lines f kept).feed chunk).1 = .lines f (feedLines f kept chunk).1 := rfl
    rw [fed, next]
    cases hf : (feedLines f kept chunk).2 with
    | error b => rfl
    | ok texts =>
      rw [feedLines_kept hf]
      change (do
        let rest ← (Decoder.lines f (splitLines (kept ++ chunk)).2).outcome chunks
        return texts ++ rest) = _
      rw [ih (splitLines_rest _)]
      cases f.textsIn ((splitLines (kept ++ chunk)).2 ++ chunks.flatten) <;> rfl

/-- However a stream of lines is cut into chunks, the decoder gives the texts of the parts between line
feeds in order, or the breakdown of the first part that has one; so what stands before a line feed and
what stands after it do not affect each other. -/
theorem outcome_lines (f : LineFormat) (chunks before after : List Bytes) :
    (Decoder.lines f []).outcome chunks =
        (((chunks.flatten.splitOn lineFeed).mapM f.piecesOf).map List.flatten).mapError .breakdown ∧
      (Decoder.lines f []).outcome (before ++ [lineFeed] :: after) = do
        let texts ← (Decoder.lines f []).outcome before
        let rest ← (Decoder.lines f []).outcome after
        return texts ++ rest := by
  have whole (cs : List Bytes) : (Decoder.lines f []).outcome cs =
      (f.textsIn cs.flatten).mapError .breakdown :=
    outcome_lines_kept f (by simp) cs
  refine ⟨whole chunks, ?_⟩
  have split : (before ++ [lineFeed] :: after).flatten.splitOn lineFeed =
      before.flatten.splitOn lineFeed ++ after.flatten.splitOn lineFeed := by
    rw [List.flatten_append, List.flatten_cons, List.singleton_append,
      List.splitOn_append_cons_self]
  rw [whole, whole, whole, f.textsIn_append split, ← LineFormat.textsIn]
  cases f.textsIn before.flatten with
  | error b => rfl
  | ok texts => cases f.textsIn after.flatten <;> rfl

end CodeAgent.Wire
