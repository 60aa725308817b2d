import Mathlib.Data.List.Infix
import CodeAgent.Text.Search

/-! Searching a text for what a reader finds at its suffixes, and replacing a part of it each time. -/
namespace CodeAgent.Text

theorem dropStart?_append (start rest : List Char) : dropStart? start (start ++ rest) = some rest := by
  induction start with
  | nil => rfl
  | cons c start ih => rw [List.cons_append, dropStart?, if_pos (beq_self_eq_true c), ih]

theorem dropStart?_cons_of_ne {p c : Char} (other : p ≠ c) (ps cs : List Char) :
    dropStart? (p :: ps) (c :: cs) = none := by
  rw [dropStart?, if_neg (by simpa using other)]

theorem dropWhile_append_cons {α : Type} {p : α → Bool} {pre : List α} {c : α} (all : ∀ x ∈ pre, p x = true)
    (stop : p c = false) (cs : List α) : (pre ++ c :: cs).dropWhile p = c :: cs := by
  rw [List.dropWhile_append_of_pos all, List.dropWhile_cons_of_neg (by simp [stop])]

theorem takeWhile_append_cons {α : Type} {p : α → Bool} {pre : List α} {c : α} (all : ∀ x ∈ pre, p x = true)
    (stop : p c = false) (cs : List α) : (pre ++ c :: cs).takeWhile p = pre := by
  rw [List.takeWhile_append_of_pos all, List.takeWhile_cons_of_neg (by simp [stop]), List.append_nil]

/-- A text splits in one way into a run of one class and a rest that starts with a character of no such class. -/
theorem append_cons_inj {α : Type} {p : α → Bool} {xs ys cs ds : List α} {c d : α} (all : ∀ x ∈ xs, p x = true)
    (stop : p c = false) (all' : ∀ x ∈ ys, p x = true) (stop' : p d = false)
    (same : xs ++ c :: cs = ys ++ d :: ds) : xs = ys ∧ c :: cs = d :: ds := by
  have run : xs = ys := by
    have runs := congrArg (List.takeWhile p) same
    rwa [takeWhile_append_cons all stop, takeWhile_append_cons all' stop'] at runs
  subst run
  exact ⟨rfl, List.append_cancel_left same⟩

theorem dropWhile_append_of_head {α : Type} {p : α → Bool} {rest : List α} (stop : ∀ c ∈ rest.head?, p c = false)
    (cs : List α) : (cs ++ rest).dropWhile p = cs.dropWhile p ++ rest := by
  induction cs with
  | nil =>
    cases rest with
    | nil => rfl
    | cons c rest => rw [List.nil_append, List.dropWhile_cons_of_neg (by simp [stop c rfl])]; rfl
  | cons c cs ih =>
    rw [List.cons_append, List.dropWhile_cons, List.dropWhile_cons, ih]
    split <;> rfl

theorem takeWhile_append_of_head {α : Type} {p : α → Bool} {rest : List α} (stop : ∀ c ∈ rest.head?, p c = false)
    (cs : List α) : (cs ++ rest).takeWhile p = cs.takeWhile p := by
  induction cs with
  | nil =>
    cases rest with
    | nil => rfl
    | cons c rest => rw [List.nil_append, List.takeWhile_cons_of_neg (by simp [stop c rfl])]; rfl
  | cons c cs ih =>
    rw [List.cons_append, List.takeWhile_cons, List.takeWhile_cons, ih]

theorem suffix_append_of_notMem {α : Type} {x : α} {xs ys more : List α} (absent : x ∉ xs)
    (tail : x :: more <:+ xs ++ ys) : x :: more <:+ ys := by
  induction xs with
  | nil => exact tail
  | cons d ds ih =>
    rw [List.mem_cons, not_or] at absent
    rw [List.cons_append, List.suffix_cons_iff] at tail
    obtain same | tail := tail
    · exact absurd (List.cons.inj same).1 absent.1
    · exact ih absent.2 tail

/-- After each occurrence of a character, the rest of the text has a property. -/
def AfterEach (mark : Char) (P : List Char → Prop) (cs : List Char) : Prop :=
  ∀ more, mark :: more <:+ cs → P more

namespace AfterEach
variable {mark : Char} {P : List Char → Prop} {xs ys : List Char}

theorem of_notMem (absent : mark ∉ xs) : AfterEach mark P xs := fun _ tail =>
  absurd (tail.subset List.mem_cons_self) absent

theorem append (absent : mark ∉ xs) (after : AfterEach mark P ys) : AfterEach mark P (xs ++ ys) :=
  fun more tail => after more (suffix_append_of_notMem absent tail)

theorem cons (here : P ys) (after : AfterEach mark P ys) : AfterEach mark P (mark :: ys) := by
  intro more tail
  obtain same | tail := List.suffix_cons_iff.mp tail
  · exact (List.cons.inj same).2 ▸ here
  · exact after more tail

theorem of_cons {c : Char} (after : AfterEach mark P (c :: ys)) : AfterEach mark P ys :=
  fun more tail => after more (tail.trans (List.suffix_cons c ys))

end AfterEach

section FindEach
variable {α : Type} {match? : List Char → Option (α × List Char)}

theorem findEach_nil (offset : Nat) : findEach match? offset [] = [] := by
  rw [findEach]

theorem findEach_miss {c : Char} {cs : List Char} (missed : match? (c :: cs) = none) (offset : Nat) :
    findEach match? offset (c :: cs) = findEach match? (offset + 1) cs := by
  rw [findEach, missed]

theorem findEach_hit {cs rest : List Char} {a : α} (found : match? cs = some (a, rest))
    (shorter : rest.length < cs.length) (offset : Nat) :
    findEach match? offset cs = (offset, a) :: findEach match? (offset + (cs.length - rest.length)) rest := by
  cases cs with
  | nil => contradiction
  | cons c cs =>
    rw [findEach, found]
    exact if_pos shorter

/-- A part of a text where nothing is found is passed over. -/
theorem findEach_append {pre : List Char} (missed : ∀ c ∈ pre, ∀ more, match? (c :: more) = none)
    (offset : Nat) (cs : List Char) :
    findEach match? offset (pre ++ cs) = findEach match? (offset + pre.length) cs := by
  induction pre generalizing offset with
  | nil => rfl
  | cons c pre ih =>
    obtain ⟨first, missed⟩ := List.forall_mem_cons.mp missed
    rw [List.cons_append, findEach_miss (first _), ih missed, List.length_cons, Nat.add_assoc,
      Nat.add_comm 1]

/-- Nothing is found before the search starts. -/
theorem le_of_mem_findEach {offset : Nat} {cs : List Char} {p : Nat × α} (mem : p ∈ findEach match? offset cs) :
    offset ≤ p.1 := by
  fun_induction findEach match? offset cs with
  | case1 => contradiction
  | case2 offset c cs missed ih => exact Nat.le_of_succ_le (ih mem)
  | case3 offset c cs a rest found shorter ih =>
    obtain rfl | mem := List.mem_cons.mp mem
    · exact Nat.le_refl _
    · exact Nat.le_of_add_right_le (ih mem)
  | case4 offset c cs a rest found longer ih => exact Nat.le_of_succ_le (ih mem)

private theorem drop_sub_append (used rest : List Char) {offset n : Nat} (later : offset + used.length ≤ n) :
    (used ++ rest).drop (n - offset) = rest.drop (n - (offset + used.length)) := by
  obtain ⟨k, rfl⟩ := Nat.exists_eq_add_of_le later
  rw [Nat.add_sub_cancel_left, Nat.add_assoc, Nat.add_sub_cancel_left, ← List.drop_drop, List.drop_left]

/-- What is found is read at its offset, if the reader leaves a suffix. -/
theorem exists_read_of_mem_findEach (leaves : ∀ {cs a rest}, match? cs = some (a, rest) → rest <:+ cs)
    {offset : Nat} {cs : List Char} {p : Nat × α} (mem : p ∈ findEach match? offset cs) :
    ∃ rest, match? (cs.drop (p.1 - offset)) = some (p.2, rest) := by
  fun_induction findEach match? offset cs with
  | case1 => contradiction
  | case2 offset c cs missed ih =>
    have skip := drop_sub_append [c] cs (le_of_mem_findEach mem)
    rw [List.singleton_append] at skip
    exact skip ▸ ih mem
  | case3 offset c cs a rest found shorter ih =>
    obtain rfl | mem := List.mem_cons.mp mem
    · exact ⟨rest, by rwa [Nat.sub_self, List.drop_zero]⟩
    · obtain ⟨used, whole⟩ := leaves found
      have length : cs.length + 1 - rest.length = used.length := by
        rw [← List.length_cons, ← whole, List.length_append, Nat.add_sub_cancel]
      rw [length] at mem ih
      have skip := drop_sub_append used rest (le_of_mem_findEach mem)
      rw [whole] at skip
      exact skip ▸ ih mem
  | case4 offset c cs a rest found longer ih =>
    have skip := drop_sub_append [c] cs (le_of_mem_findEach mem)
    rw [List.singleton_append] at skip
    exact skip ▸ ih mem

/-- What is found is read at a suffix, if the reader leaves a suffix. -/
theorem exists_suffix_of_mem_findEach (leaves : ∀ {cs a rest}, match? cs = some (a, rest) → rest <:+ cs)
    {offset : Nat} {cs : List Char} {p : Nat × α} (mem : p ∈ findEach match? offset cs) :
    ∃ tail rest, tail <:+ cs ∧ match? tail = some (p.2, rest) := by
  obtain ⟨rest, read⟩ := exists_read_of_mem_findEach leaves mem
  exact ⟨cs.drop (p.1 - offset), rest, List.drop_suffix _ cs, read⟩

theorem findEach_eq_nil {cs : List Char} (missed : ∀ tail, tail <:+ cs → match? tail = none) (offset : Nat) :
    findEach match? offset cs = [] := by
  induction cs generalizing offset with
  | nil => exact findEach_nil offset
  | cons c cs ih =>
    rw [findEach_miss (missed _ (List.suffix_refl _))]
    exact ih (fun tail suffix => missed tail (suffix.trans (List.suffix_cons c cs))) _

end FindEach

section Replacing
variable {part new cs : List Char}

theorem dropStart?_eq_none_iff : dropStart? part cs = none ↔ ¬ part <+: cs := by
  constructor
  · rintro missed ⟨rest, rfl⟩
    cases missed.symm.trans (dropStart?_append part rest)
  · intro other
    by_contra found
    obtain ⟨rest, found⟩ := Option.ne_none_iff_exists'.mp found
    exact other ⟨rest, (dropStart?_eq_some found).symm⟩

theorem startsWith_iff : startsWith part cs = true ↔ part <+: cs := by
  rw [startsWith, Option.isSome_iff_ne_none, ne_eq, dropStart?_eq_none_iff, not_not]

theorem replaceEach_part_append (filled : part ≠ []) (rest : List Char) :
    replaceEach part new (part ++ rest) = new ++ replaceEach part new rest :=
  replaceEach_hit filled (dropStart?_append part rest)

theorem replaceEach_cons {c : Char} (filled : part ≠ []) (other : ¬ part <+: c :: cs) :
    replaceEach part new (c :: cs) = c :: replaceEach part new cs :=
  replaceEach_miss filled (dropStart?_eq_none_iff.mpr other)

/-- Induction along the search for a part: a text is empty, or starts with the part, or goes on after a character where
the part does not start. -/
@[elab_as_elim]
theorem parts_induction {motive : List Char → Prop} (filled : part ≠ []) (nil : motive [])
    (hit : ∀ rest, motive rest → motive (part ++ rest))
    (miss : ∀ c cs, ¬ part <+: c :: cs → motive cs → motive (c :: cs)) (cs : List Char) : motive cs := by
  induction size : cs.length using Nat.strong_induction_on generalizing cs with
  | h n ih =>
    cases cs with
    | nil => exact nil
    | cons c cs =>
      by_cases start : part <+: c :: cs
      · obtain ⟨rest, whole⟩ := start
        have shorter := congrArg List.length whole
        have := List.length_pos_iff.mpr filled
        rw [List.length_append] at shorter
        exact whole ▸ hit rest (ih rest.length (by omega) rest rfl)
      · refine miss c cs start (ih cs.length ?_ cs rfl)
        rw [← size, List.length_cons]
        exact Nat.lt_succ_self _

theorem length_replaceEach (filled : part ≠ []) (same : new.length = part.length) (cs : List Char) :
    (replaceEach part new cs).length = cs.length := by
  induction cs using parts_induction filled with
  | nil => rw [replaceEach_nil filled]
  | hit rest ih => rw [replaceEach_part_append filled, List.length_append, List.length_append, ih, same]
  | miss c cs other ih => rw [replaceEach_cons filled other, List.length_cons, List.length_cons, ih]

theorem mem_of_mem_replaceEach {c : Char} (filled : part ≠ []) (mem : c ∈ replaceEach part new cs) :
    c ∈ cs ∨ c ∈ new := by
  induction cs using parts_induction filled with
  | nil =>
    rw [replaceEach_nil filled] at mem
    contradiction
  | hit rest ih =>
    rw [replaceEach_part_append filled, List.mem_append] at mem
    exact mem.elim .inr fun later => (ih later).imp_left (List.mem_append_right part)
  | miss d cs other ih =>
    rw [replaceEach_cons filled other, List.mem_cons] at mem
    exact mem.elim (fun same => .inl (same ▸ List.mem_cons_self)) fun later =>
      (ih later).imp_left (List.mem_cons_of_mem d)

/-- The last character stays, or is that of what is put in. -/
theorem getLast?_replaceEach (filled : part ≠ []) (same : new.length = part.length) (cs : List Char) :
    (replaceEach part new cs).getLast? = cs.getLast? ∨ (replaceEach part new cs).getLast? = new.getLast? := by
  have onto (start start' : List Char) {rest : List Char}
      (last : (replaceEach part new rest).getLast? = rest.getLast? ∨
        (replaceEach part new rest).getLast? = new.getLast?) (ends : rest = [] → start' = start ∨ start' = new) :
      (start' ++ replaceEach part new rest).getLast? = (start ++ rest).getLast? ∨
        (start' ++ replaceEach part new rest).getLast? = new.getLast? := by
    cases rest with
    | nil =>
      rw [replaceEach_nil filled, List.append_nil, List.append_nil]
      exact (ends rfl).imp (congrArg _) (congrArg _)
    | cons d ds =>
      have kept : replaceEach part new (d :: ds) ≠ [] := by
        rw [ne_eq, ← List.length_eq_zero_iff, length_replaceEach filled same]
        exact Nat.succ_ne_zero _
      rwa [List.getLast?_append_of_ne_nil _ kept, List.getLast?_append_of_ne_nil _ (List.cons_ne_nil d ds)]
  induction cs using parts_induction filled with
  | nil => exact .inl (by rw [replaceEach_nil filled])
  | hit rest ih =>
    rw [replaceEach_part_append filled]
    exact onto _ _ ih fun _ => .inr rfl
  | miss c cs other ih =>
    rw [replaceEach_cons filled other]
    exact onto [c] [c] ih fun _ => .inl rfl

/-- Where the part does not occur, nothing changes. -/
theorem replaceEach_eq_self (filled : part ≠ []) (absent : ¬ part <:+: cs) : replaceEach part new cs = cs := by
  induction cs with
  | nil => exact replaceEach_nil filled
  | cons c cs ih =>
    rw [List.infix_cons_iff, not_or] at absent
    rw [replaceEach_cons filled absent.1, ih absent.2]

/-- What no occurrence starts in stays as it is. -/
theorem replaceEach_append {pre more : List Char} (filled : part ≠ [])
    (none : ∀ c tail, c :: tail <:+ pre → ¬ part <+: c :: tail ++ more) :
    replaceEach part new (pre ++ more) = pre ++ replaceEach part new more := by
  induction pre with
  | nil => rfl
  | cons c pre ih =>
    have first : ¬ part <+: c :: (pre ++ more) := none c pre (List.suffix_refl _)
    rw [List.cons_append, replaceEach_cons filled first,
      ih fun d tail suffix => none d tail (suffix.trans (List.suffix_cons c pre)), List.cons_append]

/-- An end of the text without the last character of the part stays as it is. -/
theorem replaceEach_append_end {last : Char} {white : List Char} (ends : part.getLast? = some last)
    (absent : last ∉ white) (cs : List Char) :
    replaceEach part new (cs ++ white) = replaceEach part new cs ++ white := by
  obtain ⟨body, rfl⟩ := List.getLast?_eq_some_iff.mp ends
  have filled : body ++ [last] ≠ [] := List.concat_ne_nil last body
  induction cs using parts_induction filled with
  | nil =>
    rw [replaceEach_nil filled, List.nil_append]
    refine replaceEach_eq_self filled fun inside => absent (inside.subset ?_)
    exact List.mem_append_right body (List.mem_singleton_self last)
  | hit rest ih =>
    rw [List.append_assoc, replaceEach_part_append filled, ih, replaceEach_part_append filled, List.append_assoc]
  | miss c cs other ih =>
    have other' : ¬ body ++ [last] <+: c :: (cs ++ white) := by
      intro start
      obtain inside | ⟨more, whole⟩ := List.prefix_or_prefix_of_prefix start (List.prefix_append (c :: cs) white)
      · exact other inside
      obtain rfl | ⟨more, final, rfl⟩ := List.eq_nil_or_concat' more
      · exact other ⟨[], by rw [← whole, List.append_nil, List.append_nil]⟩
      · rw [← List.append_assoc] at whole
        obtain ⟨rfl, same⟩ := List.append_inj' whole rfl
        obtain rfl : final = last := List.head_eq_of_cons_eq same
        rw [List.append_assoc] at start
        have inside := (List.prefix_append_right_inj (c :: cs)).mp start
        exact absent (inside.subset (List.mem_append_right more (List.mem_singleton_self final)))
    rw [List.cons_append, replaceEach_cons filled other', replaceEach_cons filled other, ih, List.cons_append]

section marked
variable {mark : Char} {ps ns : List Char}

/-- A word without the mark that starts what comes of replacing starts the text. -/
theorem prefix_of_prefix_replaceEach {word : List Char} (plain : mark ∉ word)
    (start : word <+: replaceEach (mark :: ps) (mark :: ns) cs) : word <+: cs := by
  induction word generalizing cs with
  | nil => exact List.nil_prefix
  | cons a word ih =>
    rw [List.mem_cons, not_or] at plain
    cases cs with
    | nil =>
      rw [replaceEach_nil (List.cons_ne_nil mark ps)] at start
      exact start
    | cons c cs =>
      by_cases found : mark :: ps <+: c :: cs
      · obtain ⟨rest, whole⟩ := found
        rw [← whole, replaceEach_part_append (List.cons_ne_nil mark ps), List.cons_append, List.cons_prefix_cons] at start
        exact absurd start.1.symm plain.1
      · rw [replaceEach_cons (List.cons_ne_nil mark ps) found, List.cons_prefix_cons] at start
        exact List.cons_prefix_cons.mpr ⟨start.1, ih plain.2 start.2⟩

/-- Where what is put in does not look like the part, the part occurs no more. -/
theorem not_infix_replaceEach (plain : mark ∉ ps) (plain' : mark ∉ ns) (apart : ∀ more, ¬ ps <+: ns ++ more)
    (cs : List Char) : ¬ mark :: ps <:+: replaceEach (mark :: ps) (mark :: ns) cs := by
  have filled := List.cons_ne_nil mark ps
  induction cs using parts_induction filled with
  | nil =>
    rw [replaceEach_nil filled, List.infix_nil]
    exact filled
  | hit rest ih =>
    rw [replaceEach_part_append filled, List.cons_append, List.infix_cons_iff, List.cons_prefix_cons]
    rintro (⟨-, start⟩ | inside)
    · exact apart _ start
    · obtain ⟨tail, start, suffix⟩ := List.infix_iff_prefix_suffix.mp inside
      obtain ⟨more, rfl⟩ := start
      exact ih ((List.prefix_append _ more).isInfix.trans (suffix_append_of_notMem plain' suffix).isInfix)
  | miss c cs other ih =>
    rw [replaceEach_cons filled other, List.infix_cons_iff, List.cons_prefix_cons]
    rintro (⟨rfl, start⟩ | inside)
    · exact other (List.cons_prefix_cons.mpr ⟨rfl, prefix_of_prefix_replaceEach plain start⟩)
    · exact ih inside

end marked
end Replacing
end CodeAgent.Text
