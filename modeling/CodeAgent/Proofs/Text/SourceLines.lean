import CodeAgent.Proofs.Text.Lines
import CodeAgent.Proofs.Text.Utf8

/-! Source text has lines in two ways: its rows are what stands between line feeds, and the lines of running text have
other ends, too. Each of these stands in the row that is as many further up as there were other ends before. -/
namespace CodeAgent.Text

section splitting
variable {α : Type} [BEq α] [LawfulBEq α] {sep c : α} {first : List α}

theorem splitAtEach_self (sep : α) (cs : List α) : splitAtEach sep (sep :: cs) = [] :: splitAtEach sep cs :=
  if_pos BEq.rfl

theorem splitAtEach_cons_of_ne (other : c ≠ sep) (cs : List α) :
    splitAtEach sep (c :: cs) = (splitAtEach sep cs).modifyHead (c :: ·) := by
  rw [splitAtEach, if_neg (by simpa using other)]
  cases split : splitAtEach sep cs with
  | nil => exact absurd split (splitAtEach_ne_nil sep cs)
  | cons piece pieces => rfl

theorem splitAtEach_of_notMem (absent : sep ∉ first) : splitAtEach sep first = [first] := by
  induction first with
  | nil => rfl
  | cons c first ih =>
    obtain ⟨other, absent⟩ := not_or.mp (mt List.mem_cons.mpr absent)
    rw [splitAtEach_cons_of_ne (Ne.symm other), ih absent]
    rfl

theorem splitAtEach_append_cons (absent : sep ∉ first) (more : List α) :
    splitAtEach sep (first ++ sep :: more) = first :: splitAtEach sep more := by
  induction first with
  | nil => exact splitAtEach_self sep more
  | cons c first ih =>
    obtain ⟨other, absent⟩ := not_or.mp (mt List.mem_cons.mpr absent)
    rw [List.cons_append, splitAtEach_cons_of_ne (Ne.symm other), ih absent]
    rfl

end splitting

namespace Utf8

/-- The byte of a line feed. -/
def newline : UInt8 := 10

/-- A decoder inside a character waits for a byte that is none of a character on its own. -/
def Waits (p : Pending) : Prop := ∀ needed low high value, p = .inside needed low high value → 0x80 ≤ low

theorem waits_start : Waits .start := nofun

theorem waits_beginChar (b : UInt8) : Waits (beginChar b).2 := by
  unfold beginChar
  split
  · exact waits_start
  split
  · next p lead =>
    obtain ⟨-, -, rfl⟩ | ⟨-, rfl⟩ | ⟨-, rfl⟩ | ⟨-, -, -, rfl⟩ | ⟨-, rfl⟩ | ⟨-, rfl⟩ | ⟨-, -, rfl⟩ :=
      leadByte_eq_some lead
    all_goals
      rintro needed low high value ⟨⟩
      decide
  · exact waits_start

theorem waits_step (p : Pending) (b : UInt8) : Waits (step p b).2 := by
  unfold step
  split
  · exact waits_beginChar b
  split
  · dsimp only
    split
    · exact waits_start
    · rintro needed low high value ⟨⟩
      exact Nat.le_refl _
  · exact waits_beginChar b

theorem waits_run {p : Pending} (waits : Waits p) (bs : Bytes) : Waits (run p bs).2 := by
  induction bs generalizing p with
  | nil => exact waits
  | cons b bs ih => exact ih (waits_step p b)

/-- A line feed ends what was begun, and is read as itself. -/
theorem decodeFrom_newline {p : Pending} (waits : Waits p) (bs : Bytes) :
    decodeFrom p (newline :: bs) = repair (finish p) ++ '\n' :: decode bs := by
  have fresh : run .start (newline :: bs) = ([some '\n'] ++ (run .start bs).1, (run .start bs).2) :=
    run_small (by decide) bs
  cases p with
  | start => exact decodeFrom_cons fresh
  | inside needed low high value =>
    have large := waits needed low high value rfl
    have misfit : ¬ (low ≤ newline.toNat ∧ newline.toNat ≤ high) := fun fits =>
      absurd (Nat.le_trans large fits.1) (by decide)
    rw [decodeFrom_cons (run_stuck misfit bs)]
    exact congrArg (_ ++ ·) (decodeFrom_cons fresh)

theorem decode_append_newline (bs more : Bytes) : decode (bs ++ newline :: more) = decode bs ++ '\n' :: decode more := by
  change decodeFrom .start (bs ++ newline :: more) = decodeFrom .start bs ++ _
  rw [decodeFrom_append, decodeFrom_newline (waits_run waits_start bs), ← List.append_assoc]
  simp [decodeFrom, repair]

/-- Only the byte of a line feed is read as one. -/
theorem newline_notMem_decode {bs : Bytes} (absent : newline ∉ bs) : '\n' ∉ decode bs := by
  have decoded := decoded_decode bs
  generalize decode bs = cs at decoded
  induction decoded with
  | nil => exact List.not_mem_nil
  | char c _ ih =>
    rw [List.mem_append, not_or] at absent
    rw [List.mem_cons, not_or]
    refine ⟨fun same => absent.1 ?_, ih absent.2⟩
    rw [← same]
    decide
  | invalid _ _ ih =>
    rw [List.mem_append, not_or] at absent
    rw [List.mem_cons, not_or]
    exact ⟨by decide, ih absent.2⟩

/-- The rows of bytes are read one by one as those of the text. -/
theorem map_decode_splitAtEach (bs : Bytes) :
    (splitAtEach newline bs).map decode = splitAtEach '\n' (decode bs) := by
  by_cases fed : newline ∈ bs
  · obtain ⟨row, more, rfl, absent⟩ := List.eq_append_cons_of_mem fed
    rw [splitAtEach_append_cons absent, decode_append_newline, splitAtEach_append_cons (newline_notMem_decode absent),
      List.map_cons, map_decode_splitAtEach more]
  · rw [splitAtEach_of_notMem fed, splitAtEach_of_notMem (newline_notMem_decode fed), List.map_singleton]
termination_by bs.length
decreasing_by simp only [*, List.length_append, List.length_cons]; omega

end Utf8

/-- The end of a line of running text has no line feed. -/
def Unfed (run : List Char × List Char) : Prop := run.2.getLast? ≠ some '\n'

instance : DecidablePred Unfed := fun _ => inferInstanceAs (Decidable (¬ _))

/-- The lines of running text, put together to rows. -/
def rowsOf : List (List Char × List Char) → List (List Char)
  | [] => [[]]
  | run :: runs =>
    if Unfed run then (rowsOf runs).modifyHead (run.1 ++ run.2 ++ ·) else (run.1 ++ run.2.dropLast) :: rowsOf runs

/-- The number of lines before one that have ends without a line feed. -/
def unfedBefore (runs : List (List Char × List Char)) (n : Nat) : Nat := (runs.take n).countP (Unfed ·)

section rows
variable {run : List Char × List Char} {runs : List (List Char × List Char)} {line ending : List Char}

theorem rowsOf_cons_of_unfed (unfed : Unfed run) :
    rowsOf (run :: runs) = (rowsOf runs).modifyHead (run.1 ++ run.2 ++ ·) := if_pos unfed

theorem rowsOf_cons_of_fed (fed : ¬ Unfed run) : rowsOf (run :: runs) = (run.1 ++ run.2.dropLast) :: rowsOf runs :=
  if_neg fed

theorem rowsOf_ne_nil (runs : List (List Char × List Char)) : rowsOf runs ≠ [] := by
  induction runs with
  | nil => exact List.cons_ne_nil _ _
  | cons run runs ih =>
    rw [rowsOf]
    split
    · simpa using ih
    · exact List.cons_ne_nil _ _

theorem modifyHead_append (front more : List Char) (pieces : List (List Char)) :
    (pieces.modifyHead (more ++ ·)).modifyHead (front ++ ·) = pieces.modifyHead (front ++ more ++ ·) := by
  cases pieces with
  | nil => rfl
  | cons piece pieces => simp

theorem modifyHead_nil_append (pieces : List (List Char)) : pieces.modifyHead ([] ++ ·) = pieces := by
  cases pieces <;> rfl

/-- The rows of a text after the start of the first one are the lines, put together where the end between them has no line
feed. -/
theorem modifyHead_splitAtEach (line cs : List Char) :
    (splitAtEach '\n' cs).modifyHead (line.reverse ++ ·) = rowsOf (lineRunsFrom line cs) := by
  fun_induction lineRunsFrom line cs with
  | case1 line empty =>
    rw [List.isEmpty_iff.mp empty]
    rfl
  | case2 line filled =>
    have unfed : Unfed (line.reverse, []) := (Option.some_ne_none '\n').symm
    rw [rowsOf_cons_of_unfed unfed, List.append_nil]
    rfl
  | case3 line cs ih =>
    rw [List.reverse_nil, modifyHead_nil_append] at ih
    have fed : ¬ Unfed (line.reverse, ['\r', '\n']) := fun unfed => unfed rfl
    rw [rowsOf_cons_of_fed fed, ← ih, splitAtEach_cons_of_ne (by decide), splitAtEach_self]
    rfl
  | case4 line c cs alone ends ih =>
    rw [List.reverse_nil, modifyHead_nil_append] at ih
    by_cases newline : c = '\n'
    · have fed : ¬ Unfed (line.reverse, [c]) := fun unfed => unfed (congrArg some newline)
      rw [rowsOf_cons_of_fed fed, ← ih, newline, splitAtEach_self]
      rfl
    · have unfed : Unfed (line.reverse, [c]) := fun same => newline (Option.some.inj same)
      rw [rowsOf_cons_of_unfed unfed, ← ih, splitAtEach_cons_of_ne newline]
      exact modifyHead_append line.reverse [c] _
  | case5 line c cs alone goes ih =>
    have newline : c ≠ '\n' := fun same => goes (same ▸ rfl)
    rw [← ih, splitAtEach_cons_of_ne newline, List.reverse_cons]
    exact modifyHead_append line.reverse [c] _

/-- The rows of a text are its lines, put together where the end between them has no line feed. -/
theorem splitAtEach_eq_rowsOf (cs : List Char) : splitAtEach '\n' cs = rowsOf (lineRuns cs) := by
  rw [lineRuns, ← modifyHead_splitAtEach, List.reverse_nil, modifyHead_nil_append]

theorem unfedBefore_le (runs : List (List Char × List Char)) (n : Nat) : unfedBefore runs n ≤ n :=
  Nat.le_trans List.countP_le_length (List.length_take_le n runs)

theorem unfedBefore_of_unfed (unfed : Unfed run) (runs : List (List Char × List Char)) (n : Nat) :
    unfedBefore (run :: runs) (n + 1) = unfedBefore runs n + 1 :=
  List.countP_cons_of_pos (decide_eq_true unfed)

theorem unfedBefore_of_fed (fed : ¬ Unfed run) (runs : List (List Char × List Char)) (n : Nat) :
    unfedBefore (run :: runs) (n + 1) = unfedBefore runs n :=
  List.countP_cons_of_neg (by simpa using fed)

/-- A line of a text stands in the row that is as many further up as there are lines before it that have ends without a
line feed. It begins the row if there are none. -/
theorem exists_row_of_line {n : Nat} (there : runs[n]? = some run) : ∃ before after,
    (rowsOf runs)[n - unfedBefore runs n]? = some (before ++ run.1 ++ after) ∧ (unfedBefore runs n = 0 → before = []) := by
  induction n generalizing runs with
  | zero =>
    cases runs with
    | nil => cases there
    | cons first runs =>
      obtain rfl : first = run := Option.some.inj there
      by_cases unfed : Unfed first
      · obtain ⟨row, rows, split⟩ := List.exists_cons_of_ne_nil (rowsOf_ne_nil runs)
        rw [rowsOf_cons_of_unfed unfed, split]
        exact ⟨[], first.2 ++ row, by simp [unfedBefore], fun _ => rfl⟩
      · rw [rowsOf_cons_of_fed unfed]
        exact ⟨[], first.2.dropLast, rfl, fun _ => rfl⟩
  | succ n ih =>
    cases runs with
    | nil => cases there
    | cons first runs =>
      obtain ⟨before, after, row, start⟩ := ih (List.getElem?_cons_succ.symm.trans there)
      by_cases unfed : Unfed first
      · rw [unfedBefore_of_unfed unfed, Nat.add_sub_add_right, rowsOf_cons_of_unfed unfed, List.getElem?_modifyHead, row]
        split
        · exact ⟨first.1 ++ first.2 ++ before, after, by simp, fun none => nomatch none⟩
        · exact ⟨before, after, rfl, fun none => nomatch none⟩
      · rw [unfedBefore_of_fed unfed, Nat.succ_sub (unfedBefore_le runs n), rowsOf_cons_of_fed unfed]
        exact ⟨before, after, row, start⟩

/-- Where there is no line, the row is empty if all lines have ends with a line feed. -/
theorem row_of_no_line {n : Nat} (none : runs[n]? = none) (fed : unfedBefore runs n = 0) :
    (rowsOf runs)[n]?.getD [] = [] := by
  induction n generalizing runs with
  | zero =>
    cases runs with
    | nil => rfl
    | cons first runs => cases none
  | succ n ih =>
    cases runs with
    | nil => rfl
    | cons first runs =>
      by_cases unfed : Unfed first
      · rw [unfedBefore_of_unfed unfed] at fed
        cases fed
      · rw [unfedBefore_of_fed unfed] at fed
        rw [rowsOf_cons_of_fed unfed]
        exact ih (List.getElem?_cons_succ.symm.trans none) fed

end rows
end CodeAgent.Text
