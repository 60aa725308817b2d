import Mathlib.Data.List.TakeWhile
import CodeAgent.Proofs.Text.Search
import CodeAgent.Text.Blank

/-! Cutting white space off, and the characters that stay. -/
namespace CodeAgent.Text

section trim
variable {α : Type} {p : α → Bool}

theorem dropWhile_eq_self {cs : List α} (first : ∀ c ∈ cs.head?, p c = false) : cs.dropWhile p = cs := by
  cases cs with
  | nil => rfl
  | cons c cs => rw [List.dropWhile_cons_of_neg (by rw [first c rfl]; exact Bool.false_ne_true)]

/-- What is cut off from both ends of elements with others of the class after them. -/
theorem trimBy_append {cs white : List α} (first : ∀ c ∈ cs.head?, p c = false) (last : ∀ c ∈ cs.getLast?, p c = false)
    (cut : ∀ c ∈ white, p c = true) : trimBy p (cs ++ white) = cs := by
  have ends : (white.reverse ++ cs.reverse).dropWhile p = cs.reverse := by
    rw [List.dropWhile_append_of_pos fun c mem => cut c (List.mem_reverse.mp mem),
      dropWhile_eq_self (by rwa [List.head?_reverse])]
  rw [trimBy]
  cases cs with
  | nil =>
    have none : white.dropWhile p = [] := List.dropWhile_eq_nil_iff.mpr cut
    rw [List.nil_append, none]
    rfl
  | cons c cs =>
    have kept : (c :: cs ++ white).dropWhile p = c :: cs ++ white := dropWhile_eq_self first
    rw [kept, List.reverse_append, ends, List.reverse_reverse]

/-- What starts with an element that is not of the class is cut at its end only. -/
theorem trimBy_cons_of_neg {c : α} (other : p c = false) (cs : List α) :
    trimBy p (c :: cs) = c :: (cs.reverse.dropWhile p).reverse := by
  have stop : ∀ d ∈ [c].head?, p d = false := fun d same => Option.some.inj same ▸ other
  have kept : (c :: cs).dropWhile p = c :: cs := dropWhile_eq_self stop
  rw [trimBy, kept, List.reverse_cons, dropWhile_append_of_head stop, List.reverse_append]
  rfl

theorem trimBy_cons_of_pos {c : α} (cut : p c = true) (cs : List α) : trimBy p (c :: cs) = trimBy p cs := by
  rw [trimBy, List.dropWhile_cons_of_pos cut, trimBy]

theorem trimBy_concat_of_pos {c : α} (cut : p c = true) (cs : List α) : trimBy p (cs ++ [c]) = trimBy p cs := by
  have last (ds : List α) : (ds ++ [c]).reverse.dropWhile p = ds.reverse.dropWhile p := by
    rw [List.reverse_concat, List.dropWhile_cons_of_pos cut]
  rw [trimBy, trimBy, List.dropWhile_append]
  split
  · next none => simp [List.isEmpty_iff.mp none, cut]
  · rw [last]

theorem trimBy_append_of_pos {white : List α} (cut : ∀ c ∈ white, p c = true) (cs : List α) :
    trimBy p (cs ++ white) = trimBy p cs := by
  induction white generalizing cs with
  | nil => rw [List.append_nil]
  | cons c white ih =>
    obtain ⟨own, others⟩ := List.forall_mem_cons.mp cut
    rw [List.append_cons, ih others, trimBy_concat_of_pos own]

theorem dropWhile_start {cs ds : List α} (start : cs <+: ds) : cs.dropWhile p <+: ds.dropWhile p := by
  obtain ⟨more, rfl⟩ := start
  rw [List.dropWhile_append]
  split
  · next none => rw [List.isEmpty_iff.mp none]; exact List.nil_prefix
  · exact List.prefix_append _ _

/-- What is cut at both ends starts what is cut so with more after it. -/
theorem trimBy_prefix_append (cs more : List α) : trimBy p cs <+: trimBy p (cs ++ more) := by
  have ends (ds : List α) : (ds.reverse.dropWhile p).reverse <+: ((ds ++ more).reverse.dropWhile p).reverse := by
    rw [List.reverse_append, List.dropWhile_append]
    split
    · exact List.prefix_refl _
    · have start : (ds.reverse.dropWhile p).reverse <+: ds.reverse.reverse :=
        List.reverse_prefix.mpr (List.dropWhile_suffix p)
      rw [List.reverse_reverse] at start
      rw [List.reverse_append, List.reverse_reverse]
      exact start.trans (List.prefix_append _ _)
  rw [trimBy, trimBy, List.dropWhile_append]
  split
  · next none =>
    rw [List.isEmpty_iff.mp none]
    exact List.nil_prefix
  · exact ends _

/-- What is cut at both ends is an end of what is cut at its end only. -/
theorem trimBy_suffix (cs : List α) : trimBy p cs <:+ (cs.reverse.dropWhile p).reverse := by
  have start : (cs.dropWhile p).reverse <+: cs.reverse := List.reverse_prefix.mpr (List.dropWhile_suffix p)
  exact List.reverse_suffix.mpr (dropWhile_start start)

theorem mem_dropWhile_of_neg {c : α} {cs : List α} (mem : c ∈ cs) (stays : ¬ p c = true) : c ∈ cs.dropWhile p := by
  rw [← List.takeWhile_append_dropWhile (p := p) (l := cs), List.mem_append] at mem
  exact mem.resolve_left fun first => stays (List.mem_takeWhile_imp first)

theorem mem_trimBy_of_neg {c : α} {cs : List α} (mem : c ∈ cs) (stays : ¬ p c = true) : c ∈ trimBy p cs := by
  rw [trimBy, List.mem_reverse]
  exact mem_dropWhile_of_neg (List.mem_reverse.mpr (mem_dropWhile_of_neg mem stays)) stays

theorem trimBy_subset (p : α → Bool) (cs : List α) : trimBy p cs ⊆ cs := fun _ mem => by
  rw [trimBy, List.mem_reverse] at mem
  exact (List.dropWhile_suffix p).subset (List.mem_reverse.mp ((List.dropWhile_suffix p).subset mem))

theorem trimBy_eq_nil_of_pos {cs : List α} (cut : ∀ c ∈ cs, p c = true) : trimBy p cs = [] := by
  rw [trimBy, List.dropWhile_eq_nil_iff.mpr cut]
  rfl

end trim

section intercalate
variable {α : Type} {sep part : List α} {parts : List (List α)}

theorem infix_intercalate (sep : List α) (mem : part ∈ parts) : part <:+: sep.intercalate parts := by
  induction parts with
  | nil => cases mem
  | cons first parts ih =>
    cases parts with
    | nil =>
      rw [List.mem_singleton.mp mem]
      exact ⟨[], [], by simp⟩
    | cons second parts =>
      rw [List.intercalate_cons_cons]
      obtain rfl | later := List.mem_cons.mp mem
      · rw [List.append_assoc]
        exact (List.prefix_append _ _).isInfix
      · exact (ih later).trans (List.suffix_append _ _).isInfix

theorem mem_intercalate {c : α} (mem : c ∈ sep.intercalate parts) : c ∈ sep ∨ ∃ part ∈ parts, c ∈ part := by
  induction parts with
  | nil => cases mem
  | cons first parts ih =>
    cases parts with
    | nil =>
      rw [List.intercalate_singleton] at mem
      exact .inr ⟨first, List.mem_singleton_self first, mem⟩
    | cons second parts =>
      rw [List.intercalate_cons_cons, List.mem_append, List.mem_append] at mem
      obtain (own | between) | later := mem
      · exact .inr ⟨first, List.mem_cons_self, own⟩
      · exact .inl between
      · exact (ih later).imp_right fun ⟨part, mem, own⟩ => ⟨part, List.mem_cons_of_mem _ mem, own⟩

end intercalate

/-- The number of characters that are not white space. -/
def ink (cs : List Char) : Nat := cs.countP fun c => !isBlank c

@[simp]
theorem ink_nil : ink [] = 0 := rfl

@[simp]
theorem ink_append (cs ds : List Char) : ink (cs ++ ds) = ink cs + ink ds :=
  List.countP_append

theorem ink_cons (c : Char) (cs : List Char) : ink (c :: cs) = ink [c] + ink cs :=
  ink_append [c] cs

theorem ink_of_blank {cs : List Char} (blank : ∀ c ∈ cs, isBlank c = true) : ink cs = 0 := by
  refine List.countP_eq_zero.mpr fun c hc => ?_
  simp [blank c hc]

theorem ink_dropWhile (cs : List Char) : ink (cs.dropWhile isBlank) = ink cs := by
  have parts : ink (cs.takeWhile isBlank ++ cs.dropWhile isBlank) = ink cs := by
    rw [List.takeWhile_append_dropWhile]
  rwa [ink_append, ink_of_blank fun c hc => List.mem_takeWhile_imp hc, Nat.zero_add] at parts

theorem ink_reverse (cs : List Char) : ink cs.reverse = ink cs :=
  List.countP_reverse

@[simp]
theorem ink_trimChars (cs : List Char) : ink (trimChars cs) = ink cs := by
  rw [trimChars, trimBy, ink_reverse, ink_dropWhile, ink_reverse, ink_dropWhile]

theorem ink_le_of_prefix {cs ds : List Char} (start : cs <+: ds) : ink cs ≤ ink ds :=
  start.sublist.countP_le

end CodeAgent.Text
