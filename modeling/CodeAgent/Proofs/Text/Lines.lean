import CodeAgent.Text.Line

/-! Texts that are split. The lines of running text and those of a file differ: a file has fewer ends of lines, so that
lines of the text are put together to lines of the file, and both are numbered alike up to the first end that is none
of a file. -/
namespace CodeAgent.Text

/-- A line with its end is a part of the text. -/
theorem infix_of_mem_lineRunsFrom {cs line : List Char} {run : List Char × List Char}
    (mem : run ∈ lineRunsFrom line cs) : run.1 ++ run.2 <:+: line.reverse ++ cs := by
  -- A run is either the current line with its end, or one of the later lines.
  have cases_of {line ending more : List Char} {runs : List (List Char × List Char)}
      (mem : run ∈ (line.reverse, ending) :: runs) (later : run ∈ runs → run.1 ++ run.2 <:+: more) :
      run.1 ++ run.2 <:+: line.reverse ++ (ending ++ more) := by
    rw [← List.append_assoc]
    obtain rfl | mem := List.mem_cons.mp mem
    · exact (List.prefix_append _ _).isInfix
    · exact (later mem).trans (List.suffix_append _ _).isInfix
  fun_induction lineRunsFrom line cs with
  | case1 line => contradiction
  | case2 line filled => exact cases_of (List.mem_cons.mpr (List.mem_cons.mp mem)) (by simp)
  | case3 line cs ih => exact cases_of mem ih
  | case4 line c cs pair ends ih => exact cases_of mem ih
  | case5 line c cs pair goes ih =>
    have part := ih mem
    rwa [List.reverse_cons, List.append_assoc] at part

theorem lineRunsFrom_eq_nil_iff (line cs : List Char) : lineRunsFrom line cs = [] ↔ line = [] ∧ cs = [] := by
  fun_induction lineRunsFrom line cs with
  | case1 line empty => simp [List.isEmpty_iff.mp empty]
  | case2 line filled => simpa using filled
  | case3 line cs ih => simp
  | case4 line c cs alone ends ih => simp
  | case5 line c cs alone goes ih => simp [ih]

theorem lines_eq_nil_iff (cs : List Char) : lines cs = [] ↔ cs = [] := by
  rw [lines, List.map_eq_nil_iff, lineRuns, lineRunsFrom_eq_nil_iff, and_iff_right rfl]

/-- The ends of lines that are such in files, too; the last line may have none. -/
def fileEnds : List (List Char) := [[], ['\n'], ['\r'], ['\r', '\n']]

/-- The characters before the first of some lines, which they lead on to, or make up a line if there is none. -/
def onto (start : List Char) : List (List Char) → List (List Char)
  | [] => if start.isEmpty then [] else [start]
  | line :: more => (start ++ line) :: more

/-- The lines of running text, put together where the end between them is none of a file. -/
def joinedRuns : List (List Char × List Char) → List (List Char)
  | [] => []
  | (line, ending) :: runs =>
    if ending ∈ fileEnds then line :: joinedRuns runs else onto (line ++ ending) (joinedRuns runs)

theorem onto_nil (lines : List (List Char)) : onto [] lines = lines := by
  cases lines <;> rfl

theorem onto_append (start more : List Char) (lines : List (List Char)) :
    onto (start ++ more) lines = onto start (onto more lines) := by
  cases lines with
  | nil => cases more <;> simp [onto]
  | cons line lines => simp [onto]

theorem splitAtEach_ne_nil {α : Type} [BEq α] (sep : α) (cs : List α) : splitAtEach sep cs ≠ [] := by
  cases cs with
  | nil => simp [splitAtEach]
  | cons c cs =>
    rw [splitAtEach]
    split
    · simp
    · split <;> simp

/-- To split at each separator is what the library knows as splitting. -/
theorem splitAtEach_eq_splitOn (sep : Char) (cs : List Char) : splitAtEach sep cs = cs.splitOn sep := by
  induction cs with
  | nil => rfl
  | cons c cs ih =>
    have more := splitAtEach_ne_nil sep cs
    rw [splitAtEach, List.splitOn, List.splitOnP_cons_eq_if_modifyHead]
    rw [ih] at more ⊢
    by_cases here : c == sep
    · rw [if_pos here, if_pos here]
      rfl
    · rw [if_neg here, if_neg here]
      change _ = (cs.splitOn sep).modifyHead (List.cons c)
      cases split : cs.splitOn sep with
      | nil => exact absurd split more
      | cons => rfl

section fileLines
variable {c : Char} {cs : List Char}

theorem dropEmptyLast_cons (piece : List Char) {pieces : List (List Char)} (more : pieces ≠ []) :
    dropEmptyLast (piece :: pieces) = piece :: dropEmptyLast pieces := by
  unfold dropEmptyLast
  rw [List.getLast?_cons_of_ne_nil more]
  split
  · exact List.dropLast_cons_of_ne_nil more
  · rfl

theorem fileLines_newline (cs : List Char) : fileLines ('\n' :: cs) = [] :: fileLines cs := by
  unfold fileLines
  rw [splitAtEach, if_pos (beq_self_eq_true _), dropEmptyLast_cons [] (splitAtEach_ne_nil _ _)]
  rfl

theorem dropReturn_cons (other : c ≠ '\r') (line : List Char) : dropReturn (c :: line) = c :: dropReturn line := by
  unfold dropReturn
  cases line with
  | nil => simp [other]
  | cons d line =>
    rw [List.getLast?_cons_cons]
    split
    · rfl
    · rfl

/-- A character that neither ends a line nor counts as a part of its end leads on to the first line. -/
theorem fileLines_cons (no_newline : c ≠ '\n') (no_return : c ≠ '\r') (cs : List Char) :
    fileLines (c :: cs) = onto [c] (fileLines cs) := by
  rw [fileLines, fileLines, splitAtEach, if_neg (by simpa using no_newline)]
  cases split : splitAtEach '\n' cs with
  | nil => exact absurd split (splitAtEach_ne_nil _ _)
  | cons piece pieces =>
    dsimp only
    cases pieces with
    | nil =>
      cases piece with
      | nil => simp [dropEmptyLast, dropReturn, onto, no_return]
      | cons d piece =>
        have alone : dropEmptyLast [c :: d :: piece] = [c :: d :: piece] := rfl
        have alone' : dropEmptyLast [d :: piece] = [d :: piece] := rfl
        rw [alone, alone', List.map_singleton, List.map_singleton, dropReturn_cons no_return]
        rfl
    | cons next pieces =>
      rw [dropEmptyLast_cons _ (List.cons_ne_nil _ _), dropEmptyLast_cons _ (List.cons_ne_nil _ _), List.map_cons,
        List.map_cons, dropReturn_cons no_return]
      rfl

end fileLines

section joined
variable {c : Char} {line ending : List Char} {cs : List Char} {runs : List (List Char × List Char)}

theorem unifyLineEnds_return (alone : ∀ cs', cs ≠ '\n' :: cs') :
    unifyLineEnds ('\r' :: cs) = '\n' :: unifyLineEnds cs := by
  rw [unifyLineEnds]
  exact alone

theorem unifyLineEnds_cons (no_return : c ≠ '\r') (cs : List Char) :
    unifyLineEnds (c :: cs) = c :: unifyLineEnds cs := by
  rw [unifyLineEnds]
  · exact fun _ same => absurd same no_return
  · exact no_return

theorem joinedRuns_cons_of_file (file : ending ∈ fileEnds) :
    joinedRuns ((line, ending) :: runs) = line :: joinedRuns runs := if_pos file

theorem joinedRuns_cons_of_other (other : ending ∉ fileEnds) :
    joinedRuns ((line, ending) :: runs) = onto (line ++ ending) (joinedRuns runs) := if_neg other

/-- The lines of a file are those of its text, put together where the end between them is none of a file. -/
theorem onto_fileLines (line cs : List Char) :
    onto line.reverse (fileLines (unifyLineEnds cs)) = joinedRuns (lineRunsFrom line cs) := by
  fun_induction lineRunsFrom line cs with
  | case1 line empty =>
    rw [List.isEmpty_iff.mp empty]
    rfl
  | case2 line filled =>
    have filled : ¬ line.reverse.isEmpty := by simpa using filled
    exact if_neg filled
  | case3 line cs ih =>
    rw [List.reverse_nil, onto_nil] at ih
    rw [unifyLineEnds, fileLines_newline, joinedRuns_cons_of_file (by simp [fileEnds]), ← ih, onto, List.append_nil]
  | case4 line c cs alone ends ih =>
    rw [List.reverse_nil, onto_nil] at ih
    by_cases newline : c = '\n'
    · rw [newline, unifyLineEnds_cons (by decide), fileLines_newline, joinedRuns_cons_of_file (by simp [fileEnds]),
        ← ih, onto, List.append_nil]
    by_cases carriage : c = '\r'
    · subst carriage
      rw [unifyLineEnds_return fun cs' same => alone cs' rfl same, fileLines_newline,
        joinedRuns_cons_of_file (by simp [fileEnds]), ← ih, onto, List.append_nil]
    · rw [unifyLineEnds_cons carriage, fileLines_cons newline carriage,
        joinedRuns_cons_of_other (by simp [fileEnds, newline, carriage]), ← ih, onto_append]
  | case5 line c cs alone goes ih =>
    have newline : c ≠ '\n' := fun same => goes (same ▸ rfl)
    have carriage : c ≠ '\r' := fun same => goes (same ▸ rfl)
    rw [unifyLineEnds_cons carriage, fileLines_cons newline carriage, ← onto_append, ← ih, List.reverse_cons]

theorem fileLines_unifyLineEnds (cs : List Char) : fileLines (unifyLineEnds cs) = joinedRuns (lineRuns cs) := by
  rw [lineRuns, ← onto_fileLines, List.reverse_nil, onto_nil]

/-- Up to the first end of a line that is none of a file, a file has the lines of its text. -/
theorem joinedRuns_append_of_file {first : List (List Char × List Char)} (file : ∀ run ∈ first, run.2 ∈ fileEnds)
    (runs : List (List Char × List Char)) : joinedRuns (first ++ runs) = first.map (·.1) ++ joinedRuns runs := by
  induction first with
  | nil => rfl
  | cons run first ih =>
    obtain ⟨own, others⟩ := List.forall_mem_cons.mp file
    rw [List.cons_append, joinedRuns_cons_of_file own, ih others, List.map_cons, List.cons_append]

/-- After ends of lines of a file only, the file has a line for the next one of the text, and it is the same exactly
if that ends like one of a file, too. -/
theorem joinedRuns_getElem?_of_file {n : Nat} (run : runs[n]? = some (line, ending))
    (file : ∀ earlier ∈ runs.take n, earlier.2 ∈ fileEnds) :
    ∃ own, (joinedRuns runs)[n]? = some own ∧ (own = line ↔ ending ∈ fileEnds) := by
  obtain ⟨short, here⟩ := List.getElem?_eq_some_iff.mp run
  have parts : joinedRuns runs = (runs.take n).map (·.1) ++ joinedRuns ((line, ending) :: runs.drop (n + 1)) := by
    rw [← joinedRuns_append_of_file file, ← here, ← List.drop_eq_getElem_cons short, List.take_append_drop]
  have length : ((runs.take n).map (·.1)).length = n := by
    rw [List.length_map, List.length_take, Nat.min_eq_left (Nat.le_of_lt short)]
  rw [parts, List.getElem?_append_right (Nat.le_of_eq length), length, Nat.sub_self]
  by_cases own : ending ∈ fileEnds
  · rw [joinedRuns_cons_of_file own]
    exact ⟨line, rfl, iff_of_true rfl own⟩
  · rw [joinedRuns_cons_of_other own]
    -- The line of the file goes on past the end of the line of the text, which is not empty.
    have filled : ending ≠ [] := fun empty => own (by simp [empty, fileEnds])
    cases joinedRuns (runs.drop (n + 1)) with
    | nil =>
      rw [onto, if_neg (by simp [filled])]
      exact ⟨_, rfl, iff_of_false (by simpa using filled) own⟩
    | cons next lines =>
      refine ⟨_, rfl, iff_of_false ?_ own⟩
      rw [List.append_assoc, List.append_right_eq_self, List.append_eq_nil_iff]
      exact fun none => filled none.1

end joined

/-- What is shown of a line that may not be there. -/
def shownLine (line? : Option (List Char)) : String :=
  (line?.map String.ofList).getD emptyRange

theorem linesBetween_single (n : Nat) (ls : List (List Char)) :
    linesBetween (some (n + 1 : Nat)) (some (n + 1 : Nat)) ls = ls[n]?.toList := by
  unfold linesBetween
  have skip : ((some ((n + 1 : Nat) : Int)).getD 1 - 1).toNat = n := by simp
  rw [skip]
  dsimp only
  rw [Int.toNat_natCast]
  by_cases short : n < ls.length
  · rw [Nat.min_eq_left short, List.drop_take, Nat.succ_sub (Nat.le_refl n), Nat.sub_self,
      List.drop_eq_getElem_cons short, List.getElem?_eq_getElem short]
    rfl
  · have long : ls.length ≤ n := Nat.le_of_not_lt short
    rw [List.getElem?_eq_none long, List.drop_eq_nil_of_le (by rw [List.length_take]; omega)]
    rfl

/-- A range of one line shows that line. -/
theorem lineRange_single (content : String) (n : Nat) :
    lineRange content (some (n + 1 : Nat)) (some (n + 1 : Nat)) = shownLine (fileLines content.toList)[n]? := by
  unfold lineRange
  rw [linesBetween_single]
  cases (fileLines content.toList)[n]? with
  | none => rfl
  | some line => simp [shownLine]

end CodeAgent.Text
