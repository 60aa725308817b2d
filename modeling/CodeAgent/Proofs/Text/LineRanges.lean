import CodeAgent.Proofs.Text.Lines

/-! Texts that are read in ranges of lines: a range has the lines whose numbers lie in it, and ranges that follow each
other make up the text. -/
namespace CodeAgent.Text

/-- A text without the line feed at its end, if there is one. -/
def dropLastFeed (cs : List Char) : List Char :=
  if cs.getLast? = some '\n' then cs.dropLast else cs

/-- The lines of a text in which line feeds end them; the last one need not be ended, and only a text that is empty has
none. -/
def fedLines (cs : List Char) : List (List Char) :=
  if cs = [] then [] else splitAtEach '\n' (dropLastFeed cs)

/-- What is shown of some lines. -/
def shownLines : List (List Char) → String
  | [] => emptyRange
  | ls => String.ofList (['\n'].intercalate ls)

/-- A line of a text has a number from one bound to the other. A missing bound is the first or the last line. -/
def InRange (first last : Option Int) (total number : Nat) : Prop :=
  max (first.getD 1) 1 ≤ number ∧ number ≤ min (last.getD total) total

instance (first last : Option Int) (total number : Nat) : Decidable (InRange first last total number) :=
  inferInstanceAs (Decidable (_ ∧ _))

section splitting
variable {cs : List Char}

theorem splitAtEach_append (cs : List Char) : splitAtEach '\n' (cs ++ ['\n']) = splitAtEach '\n' cs ++ [[]] := by
  induction cs with
  | nil => rfl
  | cons c cs ih =>
    rw [List.cons_append, splitAtEach, splitAtEach, ih]
    split
    · rfl
    · cases split : splitAtEach '\n' cs with
      | nil => exact absurd split (splitAtEach_ne_nil _ _)
      | cons piece pieces => rfl

/-- The last piece of a text is empty only after a separator. -/
theorem getLast?_splitAtEach (filled : cs ≠ []) (open_end : cs.getLast? ≠ some '\n') :
    (splitAtEach '\n' cs).getLast? ≠ some [] := by
  induction cs with
  | nil => exact absurd rfl filled
  | cons c cs ih =>
    cases cs with
    | nil =>
      have other : c ≠ '\n' := fun same => open_end (congrArg some same)
      simp [splitAtEach, other]
    | cons d cs =>
      rw [List.getLast?_cons_cons] at open_end
      have more := ih (List.cons_ne_nil _ _) open_end
      rw [splitAtEach]
      cases split : splitAtEach '\n' (d :: cs) with
      | nil => exact absurd split (splitAtEach_ne_nil _ _)
      | cons piece pieces =>
        rw [split] at more
        split
        · rwa [List.getLast?_cons_cons]
        · cases pieces with
          | nil => simp
          | cons next pieces => rwa [List.getLast?_cons_cons] at more ⊢

theorem dropEmptyLast_splitAtEach (filled : cs ≠ []) :
    dropEmptyLast (splitAtEach '\n' cs) = splitAtEach '\n' (dropLastFeed cs) := by
  unfold dropEmptyLast dropLastFeed
  by_cases fed : cs.getLast? = some '\n'
  · obtain ⟨start, rfl⟩ := List.getLast?_eq_some_iff.mp fed
    rw [if_pos fed, splitAtEach_append, List.getLast?_concat, if_pos (by rfl), List.dropLast_concat, List.dropLast_concat]
  · rw [if_neg fed, if_neg (by simpa using getLast?_splitAtEach filled fed)]

theorem return_notMem_unifyLineEnds (cs : List Char) : '\r' ∉ unifyLineEnds cs := by
  fun_induction unifyLineEnds cs with
  | case1 => exact List.not_mem_nil
  | case2 cs ih => simpa using ih
  | case3 cs _ ih => simpa using ih
  | case4 c cs _ other ih => simpa [Ne.symm (show c ≠ '\r' from other)] using ih

theorem unifyLineEnds_eq_nil_iff : unifyLineEnds cs = [] ↔ cs = [] := by
  fun_cases unifyLineEnds cs <;> simp

theorem subset_of_mem_splitAtEach {sep : Char} {piece : List Char} (mem : piece ∈ splitAtEach sep cs) : piece ⊆ cs := by
  induction cs generalizing piece with
  | nil =>
    rw [List.mem_singleton.mp mem]
    exact List.nil_subset _
  | cons c cs ih =>
    rw [splitAtEach] at mem
    split at mem
    · obtain rfl | mem := List.mem_cons.mp mem
      · exact List.nil_subset _
      · exact List.Subset.trans (ih mem) (List.subset_cons_self c cs)
    · split at mem
      · next none => exact absurd none (splitAtEach_ne_nil _ _)
      · next first pieces split =>
        rw [split] at ih
        obtain rfl | mem := List.mem_cons.mp mem
        · exact List.cons_subset_cons c (ih List.mem_cons_self)
        · exact List.Subset.trans (ih (List.mem_cons_of_mem _ mem)) (List.subset_cons_self c cs)

theorem dropReturn_eq_self {line : List Char} (plain : '\r' ∉ line) : dropReturn line = line := by
  refine if_neg fun last => plain (List.mem_of_getLast? ?_)
  simpa using last

/-- Where line feeds end all lines, the lines of a file are those between them. -/
theorem fileLines_of_no_return (plain : '\r' ∉ cs) : fileLines cs = fedLines cs := by
  unfold fileLines fedLines
  by_cases empty : cs = []
  · rw [if_pos empty, empty]
    rfl
  have inside : dropLastFeed cs ⊆ cs := by
    unfold dropLastFeed
    split
    · exact List.dropLast_subset cs
    · exact List.Subset.refl cs
  rw [if_neg empty, dropEmptyLast_splitAtEach empty]
  refine (List.map_congr_left fun line mem => ?_).trans (List.map_id _)
  exact dropReturn_eq_self fun own => plain (inside (subset_of_mem_splitAtEach mem own))

theorem intercalate_splitAtEach (cs : List Char) : ['\n'].intercalate (splitAtEach '\n' cs) = cs := by
  rw [splitAtEach_eq_splitOn, List.intercalate_splitOn]

/-- The lines of a text make up the text. -/
theorem shownLines_fedLines (cs : List Char) :
    shownLines (fedLines cs) = if cs = [] then emptyRange else String.ofList (dropLastFeed cs) := by
  unfold fedLines
  split
  · rfl
  · have whole := intercalate_splitAtEach (dropLastFeed cs)
    cases split : splitAtEach '\n' (dropLastFeed cs) with
    | nil => exact absurd split (splitAtEach_ne_nil _ _)
    | cons line more =>
      rw [split] at whole
      exact congrArg String.ofList whole

end splitting

section ranges
variable {ls : List (List Char)}

/-- Of numbered elements those between two places are those with the numbers between. -/
theorem drop_take_eq_filter {α : Type} (xs : List α) (skip stop start : Nat) :
    (xs.take stop).drop skip =
      ((xs.zipIdx start).filter fun x => start + skip ≤ x.2 ∧ x.2 < start + stop).map (·.1) := by
  induction xs generalizing skip stop start with
  | nil => simp
  | cons x xs ih =>
    have later : ∀ y ∈ xs.zipIdx (start + 1), start + 1 ≤ y.2 := fun y mem => List.le_snd_of_mem_zipIdx mem
    have same (s t : Nat) (inside : ∀ n, start + 1 ≤ n → (start + 1 + s ≤ n ∧ n < start + 1 + t ↔
        start + skip ≤ n ∧ n < start + stop)) : (xs.take t).drop s =
          ((xs.zipIdx (start + 1)).filter fun y => start + skip ≤ y.2 ∧ y.2 < start + stop).map (·.1) := by
      rw [ih]
      exact congrArg _ (List.filter_congr fun y mem => decide_eq_decide.mpr (inside y.2 (later y mem)))
    rw [List.zipIdx_cons]
    cases stop with
    | zero =>
      rw [List.filter_cons_of_neg (by simp), ← same 0 0 (by omega)]
      simp
    | succ stop =>
      cases skip with
      | zero =>
        rw [List.filter_cons_of_pos (by simp), List.map_cons, ← same 0 stop (by omega)]
        rfl
      | succ skip =>
        rw [List.filter_cons_of_neg (by simp), ← same skip stop (by omega)]
        rfl

/-- The lines of a range are those whose numbers are in it. -/
theorem linesBetween_eq_filter (first last : Option Int) (ls : List (List Char)) :
    linesBetween first last ls = ((ls.zipIdx 1).filter fun l => InRange first last ls.length l.2).map (·.1) := by
  have places : linesBetween first last ls =
      (ls.take (min (last.getD ls.length).toNat ls.length)).drop (first.getD 1 - 1).toNat := by
    unfold linesBetween
    cases last with
    | none => simp
    | some n => rfl
  rw [places, drop_take_eq_filter ls _ _ 1]
  refine congrArg _ (List.filter_congr fun l mem => decide_eq_decide.mpr ?_)
  have numbered : 1 ≤ l.2 := List.le_snd_of_mem_zipIdx mem
  unfold InRange
  omega

theorem lineRange_eq_shownLines (content : String) (first last : Option Int) :
    lineRange content first last = shownLines (linesBetween first last (fileLines content.toList)) := by
  unfold lineRange shownLines
  rfl

theorem intercalate_append {α : Type} (sep : List α) {xs ys : List (List α)} (filled : xs ≠ []) (more : ys ≠ []) :
    sep.intercalate (xs ++ ys) = sep.intercalate xs ++ sep ++ sep.intercalate ys := by
  induction xs with
  | nil => exact absurd rfl filled
  | cons x xs ih =>
    cases xs with
    | nil => rw [List.singleton_append, List.intercalate_cons_of_ne_nil more, List.intercalate_singleton]
    | cons x' xs =>
      rw [List.cons_append, List.intercalate_cons_of_ne_nil (by simp), ih (List.cons_ne_nil _ _),
        List.intercalate_cons_of_ne_nil (List.cons_ne_nil _ _)]
      simp only [List.append_assoc]

theorem shownLines_of_ne_nil (filled : ls ≠ []) : shownLines ls = String.ofList (['\n'].intercalate ls) := by
  cases ls with
  | nil => exact absurd rfl filled
  | cons => rfl

/-- Two ranges that follow each other make up the whole. -/
theorem shownLines_take_drop {k : Nat} (low : 1 ≤ k) (high : k < ls.length) :
    shownLines (linesBetween (some 1) (some k) ls) ++ "\n" ++ shownLines (linesBetween (some (k + 1)) none ls) =
      shownLines ls := by
  have before : linesBetween (some 1) (some k) ls = ls.take k := by
    simp [linesBetween, Nat.min_eq_left (Nat.le_of_lt high)]
  have after : linesBetween (some (k + 1)) none ls = ls.drop k := by
    simp [linesBetween]
  have filled : ls.take k ≠ [] := List.ne_nil_of_length_pos (by rw [List.length_take]; omega)
  have more : ls.drop k ≠ [] := List.ne_nil_of_length_pos (by rw [List.length_drop]; omega)
  have whole := intercalate_append ['\n'] filled more
  rw [List.take_append_drop] at whole
  rw [before, after, shownLines_of_ne_nil filled, shownLines_of_ne_nil more,
    shownLines_of_ne_nil (List.ne_nil_of_length_pos (by omega)), whole, String.ofList_append, String.ofList_append]

end ranges

end CodeAgent.Text
