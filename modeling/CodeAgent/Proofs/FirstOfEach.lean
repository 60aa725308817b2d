import Mathlib.Data.List.Nodup

/-! The first element of each key in a list. -/
namespace CodeAgent

section
variable {α κ : Type} [DecidableEq κ] {key : α → κ} {seen : List κ} {as : List α}

/-- The elements of a list that are the first ones with their key, if the key has not been seen before the list. -/
def firstOfEach (key : α → κ) (seen : List κ) : List α → List α
  | [] => []
  | a :: as => if key a ∈ seen then firstOfEach key seen as else a :: firstOfEach key (key a :: seen) as

theorem firstOfEach_sublist (seen : List κ) (as : List α) : (firstOfEach key seen as).Sublist as := by
  fun_induction firstOfEach key seen as with
  | case1 => exact .slnil
  | case2 seen a as _ ih => exact ih.cons a
  | case3 seen a as _ ih => exact ih.cons_cons a

theorem key_notMem_of_mem_firstOfEach (key : α → κ) {a : α} (mem : a ∈ firstOfEach key seen as) :
    key a ∉ seen := by
  fun_induction firstOfEach key seen as with
  | case1 => contradiction
  | case2 seen b as _ ih => exact ih mem
  | case3 seen b as fresh ih =>
    obtain rfl | mem := List.mem_cons.mp mem
    · exact fresh
    · exact fun old => ih mem (List.mem_cons_of_mem _ old)

theorem nodup_firstOfEach (seen : List κ) (as : List α) : ((firstOfEach key seen as).map key).Nodup := by
  fun_induction firstOfEach key seen as with
  | case1 => exact List.nodup_nil
  | case2 seen a as _ ih => exact ih
  | case3 seen a as _ ih =>
    rw [List.map_cons, List.nodup_cons, List.mem_map]
    refine ⟨fun ⟨b, mem, same⟩ => ?_, ih⟩
    exact key_notMem_of_mem_firstOfEach key mem (same ▸ List.mem_cons_self)

/-- In a list in order, each element is the first one with its key, or the first one goes before it. -/
theorem exists_mem_firstOfEach (key : α → κ) {r : α → α → Prop} (sorted : as.Pairwise r) {a : α}
    (mem : a ∈ as) (fresh : key a ∉ seen) : ∃ b ∈ firstOfEach key seen as, key b = key a ∧ (b = a ∨ r b a) := by
  fun_induction firstOfEach key seen as with
  | case1 => contradiction
  | case2 seen b as old ih =>
    obtain rfl | mem := List.mem_cons.mp mem
    · exact absurd old fresh
    · exact ih sorted.of_cons mem fresh
  | case3 seen b as _ ih =>
    obtain ⟨first, later⟩ := List.pairwise_cons.mp sorted
    obtain rfl | mem := List.mem_cons.mp mem
    · exact ⟨a, List.mem_cons_self, rfl, .inl rfl⟩
    · by_cases same : key b = key a
      · exact ⟨b, List.mem_cons_self, same, .inr (first a mem)⟩
      · obtain ⟨c, found, own⟩ := ih later mem (by simp [Ne.symm same, fresh])
        exact ⟨c, List.mem_cons_of_mem _ found, own⟩

theorem firstOfEach_map {β : Type} (f : β → α) (seen : List κ) (bs : List β) :
    firstOfEach key seen (bs.map f) = (firstOfEach (key ∘ f) seen bs).map f := by
  induction bs generalizing seen with
  | nil => rfl
  | cons b bs ih =>
    rw [List.map_cons, firstOfEach, firstOfEach, Function.comp_apply, ih, ih]
    split_ifs <;> rfl

/-- It does not matter whether elements are left out before or after, if those of one key stay or go together. Of the
keys seen before the list, only those of the elements that stay count. -/
theorem firstOfEach_filter (p : α → Bool) {seen' : List κ}
    (together : ∀ a ∈ as, ∀ b ∈ as, key a = key b → p a = p b)
    (alike : ∀ a ∈ as, p a = true → (key a ∈ seen ↔ key a ∈ seen')) :
    firstOfEach key seen (as.filter p) = (firstOfEach key seen' as).filter p := by
  induction as generalizing seen seen' with
  | nil => rfl
  | cons a as ih =>
    have later : ∀ b ∈ as, ∀ c ∈ as, key b = key c → p b = p c := fun b hb c hc =>
      together b (List.mem_cons_of_mem _ hb) c (List.mem_cons_of_mem _ hc)
    have alike_later : ∀ b ∈ as, p b = true → (key b ∈ seen ↔ key b ∈ seen') := fun b hb =>
      alike b (List.mem_cons_of_mem _ hb)
    cases stays : p a with
    | true =>
      rw [List.filter_cons_of_pos stays, firstOfEach, firstOfEach]
      by_cases old : key a ∈ seen
      · rw [if_pos old, if_pos ((alike a List.mem_cons_self stays).mp old), ih later alike_later]
      · rw [if_neg old, if_neg (mt (alike a List.mem_cons_self stays).mpr old), List.filter_cons_of_pos stays]
        refine congrArg (a :: ·) (ih later fun b hb own => ?_)
        rw [List.mem_cons, List.mem_cons, alike_later b hb own]
    | false =>
      rw [List.filter_cons_of_neg (by simp [stays]), firstOfEach]
      by_cases old : key a ∈ seen'
      · rw [if_pos old, ih later alike_later]
      · -- The key of the element that goes is now seen on one side only, but no element that stays has it.
        rw [if_neg old, List.filter_cons_of_neg (by simp [stays])]
        refine ih later fun b hb own => ?_
        have other : key b ≠ key a := fun same => by
          have both := together b (List.mem_cons_of_mem _ hb) a List.mem_cons_self same
          rw [own, stays] at both
          exact Bool.noConfusion both
        rw [List.mem_cons, alike_later b hb own, or_iff_right other]

end
end CodeAgent
