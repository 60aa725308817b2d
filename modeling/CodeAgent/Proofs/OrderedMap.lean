import Mathlib.Data.List.Nodup
import CodeAgent.OrderedMap

/-! Looking up names in ordered maps after changes to them. -/
namespace CodeAgent.OrderedMap
variable {α β : Type}

theorem get?_cons (name key : String) (value : α) (m : OrderedMap α) :
    get? ((name, value) :: m) key = if name = key then some value else get? m key := by
  by_cases same : name = key
  · simp [get?, same]
  · simp [get?, same]

theorem get?_put (name key : String) (value : α) (m : OrderedMap α) :
    get? (put name value m) key = if name = key then some value else get? m key := by
  induction m with
  | nil => rw [put, get?_cons]
  | cons p m ih =>
    obtain ⟨k, v⟩ := p
    rw [put]
    by_cases known : k = name
    · subst known
      rw [if_pos (beq_self_eq_true k), get?_cons, get?_cons]
      split <;> rfl
    · rw [if_neg (by simpa using known), get?_cons, get?_cons, ih]
      by_cases found : k = key
      · rw [if_pos found, if_pos found, if_neg fun same => known (found.trans same.symm)]
      · rw [if_neg found, if_neg found]

theorem put_put (name : String) (value : α) (m : OrderedMap α) :
    put name value (put name value m) = put name value m := by
  induction m with
  | nil => simp [put]
  | cons p m ih =>
    obtain ⟨k, v⟩ := p
    rw [put]
    by_cases known : k = name
    · rw [if_pos (beq_iff_eq.mpr known), put, if_pos (beq_iff_eq.mpr known)]
    · rw [if_neg (mt beq_iff_eq.mp known), put, if_neg (mt beq_iff_eq.mp known), ih]

theorem get?_map (f : α → β) (m : OrderedMap α) (key : String) :
    get? (m.map fun p => (p.1, f p.2)) key = (get? m key).map f := by
  induction m with
  | nil => rfl
  | cons p m ih =>
    rw [List.map_cons, get?_cons, ih, get?_cons]
    split <;> rfl

/-- Members in the order of their names. -/
def inOrder (m : OrderedMap α) : OrderedMap α :=
  m.mergeSort fun a b => decide (a.1 ≤ b.1)

theorem inOrder_perm (m : OrderedMap α) : (inOrder m).Perm m := List.mergeSort_perm m _

theorem inOrder_map (f : α → β) (m : OrderedMap α) :
    inOrder (m.map fun p => (p.1, f p.2)) = (inOrder m).map fun p => (p.1, f p.2) := by
  have order := List.map_mergeSort (r := fun a b => decide (a.1 ≤ b.1))
    (s := fun a b => decide (a.1 ≤ b.1)) (l := m) (f := fun p => (p.1, f p.2)) fun _ _ _ _ => rfl
  exact order.symm

private theorem trans_names (a b c : String × α) (first : decide (a.1 ≤ b.1) = true)
    (second : decide (b.1 ≤ c.1) = true) : decide (a.1 ≤ c.1) = true :=
  decide_eq_true (String.le_trans (of_decide_eq_true first) (of_decide_eq_true second))

private theorem total_names (a b : String × α) : (decide (a.1 ≤ b.1) || decide (b.1 ≤ a.1)) = true := by
  rw [Bool.or_eq_true, decide_eq_true_iff, decide_eq_true_iff]
  exact String.le_total a.1 b.1

/-- The members of one name keep their order, so that the same one is found first. -/
theorem get?_inOrder (m : OrderedMap α) (key : String) : get? (inOrder m) key = get? m key := by
  have one_name : (m.filter (·.1 == key)).Pairwise fun a b => decide (a.1 ≤ b.1) = true := by
    refine List.pairwise_of_forall_mem_list fun a ha b hb => ?_
    have ka : a.1 = key := by simpa using (List.mem_filter.mp ha).2
    have kb : b.1 = key := by simpa using (List.mem_filter.mp hb).2
    rw [ka, kb]
    exact decide_eq_true (String.le_refl key)
  have kept : (m.filter (·.1 == key)).Sublist (inOrder m) :=
    List.sublist_mergeSort trans_names total_names one_name List.filter_sublist
  have same : (inOrder m).filter (·.1 == key) = m.filter (·.1 == key) := by
    have smaller := kept.filter (·.1 == key)
    rw [List.filter_filter] at smaller
    simp only [Bool.and_self] at smaller
    exact (smaller.eq_of_length ((inOrder_perm m).filter _).length_eq.symm).symm
  rw [get?, get?, ← List.head?_filter, ← List.head?_filter, same]

theorem put_of_notMem {key : String} {m : OrderedMap α} (new : key ∉ m.keys) (value : α) :
    put key value m = m ++ [(key, value)] := by
  induction m with
  | nil => rfl
  | cons p m ih =>
    rw [keys, List.map_cons, List.mem_cons, not_or] at new
    rw [put, if_neg (by simpa using Ne.symm new.1), ih new.2, List.cons_append]

theorem mem_keys_of_put {name key : String} {value : α} {m : OrderedMap α}
    (mem : key ∈ keys (put name value m)) : key = name ∨ key ∈ keys m := by
  induction m with
  | nil => exact .inl (by simpa [put, keys] using mem)
  | cons p m ih =>
    rw [put] at mem
    split at mem
    · exact .inr mem
    · obtain same | later := List.mem_cons.mp mem
      · exact .inr (same ▸ List.mem_cons_self)
      · exact (ih later).imp_right (List.mem_cons_of_mem _)

/-- A map has only names of the pairs that describe it. -/
theorem mem_keys_of_ofPairs {key : String} {pairs : List (String × α)} (mem : key ∈ keys (ofPairs pairs)) :
    key ∈ keys pairs := by
  have onto (m : OrderedMap α) (mem : key ∈ keys (pairs.foldl (fun m p => put p.1 p.2 m) m)) :
      key ∈ keys m ∨ key ∈ keys pairs := by
    clear * - mem
    induction pairs generalizing m with
    | nil => exact .inl mem
    | cons p pairs ih =>
      obtain early | late := ih (put p.1 p.2 m) mem
      · obtain rfl | old := mem_keys_of_put early
        · exact .inr List.mem_cons_self
        · exact .inl old
      · exact .inr (List.mem_cons_of_mem _ late)
  exact (onto [] mem).resolve_left List.not_mem_nil

theorem mem_of_mem_put {name : String} {value : α} {m : OrderedMap α} {p : String × α}
    (mem : p ∈ put name value m) : p = (name, value) ∨ p ∈ m := by
  induction m with
  | nil => exact .inl (List.mem_singleton.mp mem)
  | cons q m ih =>
    rw [put] at mem
    split at mem
    · next same =>
      have same : q.1 = name := by simpa using same
      obtain rfl | later := List.mem_cons.mp mem
      · exact .inl (by rw [same])
      · exact .inr (List.mem_cons_of_mem _ later)
    · obtain rfl | later := List.mem_cons.mp mem
      · exact .inr List.mem_cons_self
      · exact (ih later).imp_right (List.mem_cons_of_mem _)

/-- A map has only pairs that describe it. -/
theorem mem_of_mem_ofPairs {pairs : List (String × α)} {p : String × α} (mem : p ∈ ofPairs pairs) :
    p ∈ pairs := by
  have onto (m : OrderedMap α) (mem : p ∈ pairs.foldl (fun m p => put p.1 p.2 m) m) :
      p ∈ m ∨ p ∈ pairs := by
    clear * - mem
    induction pairs generalizing m with
    | nil => exact .inl mem
    | cons q pairs ih =>
      obtain early | late := ih (put q.1 q.2 m) mem
      · obtain rfl | old := mem_of_mem_put early
        · exact .inr List.mem_cons_self
        · exact .inl old
      · exact .inr (List.mem_cons_of_mem _ late)
  exact (onto [] mem).resolve_left List.not_mem_nil

theorem keys_put_of_mem {key : String} {m : OrderedMap α} (known : key ∈ keys m) (value : α) :
    keys (put key value m) = keys m := by
  induction m with
  | nil => cases known
  | cons p m ih =>
    rw [put]
    split
    · rfl
    · next other =>
      have later : key ∈ keys m := (List.mem_cons.mp known).resolve_left fun same => other (by simp [same])
      exact congrArg (p.1 :: ·) (ih later)

theorem nodup_keys_put {m : OrderedMap α} (distinct : (keys m).Nodup) (key : String) (value : α) :
    (keys (put key value m)).Nodup := by
  by_cases known : key ∈ keys m
  · rw [keys_put_of_mem known]
    exact distinct
  · rw [put_of_notMem known, keys, List.map_append]
    refine List.nodup_append.mpr ⟨distinct, List.nodup_singleton key, ?_⟩
    rintro a old b new rfl
    obtain rfl := List.mem_singleton.mp new
    exact known old

/-- Whatever pairs describe a map, it has no name twice. -/
theorem nodup_keys_ofPairs (pairs : List (String × α)) : (keys (ofPairs pairs)).Nodup := by
  have onto (m : OrderedMap α) (distinct : (keys m).Nodup) :
      (keys (pairs.foldl (fun m p => put p.1 p.2 m) m)).Nodup := by
    induction pairs generalizing m with
    | nil => exact distinct
    | cons p pairs ih => exact ih _ (nodup_keys_put distinct p.1 p.2)
  exact onto [] List.nodup_nil

/-- Pairs with different names are the map that they describe. -/
theorem ofPairs_of_nodup {pairs : List (String × α)} (distinct : (keys pairs).Nodup) :
    ofPairs pairs = pairs := by
  have onto (m : OrderedMap α) (all : (keys (m ++ pairs)).Nodup) :
      pairs.foldl (fun m p => put p.1 p.2 m) m = m ++ pairs := by
    clear distinct
    induction pairs generalizing m with
    | nil => rw [List.foldl_nil, List.append_nil]
    | cons p pairs ih =>
      have new : p.1 ∉ keys m := fun old => by
        rw [keys, List.map_append, List.map_cons] at all
        exact (List.nodup_append.mp all).2.2 _ old _ List.mem_cons_self rfl
      rw [List.foldl_cons, put_of_notMem new, ih]
      · rw [List.append_assoc, List.singleton_append]
      · rwa [List.append_assoc, List.singleton_append]
  exact onto [] distinct

theorem get?_eq_none_of_notMem {m : OrderedMap α} {key : String} (absent : key ∉ keys m) : get? m key = none := by
  rw [get?, List.find?_eq_none.mpr, Option.map_none]
  exact fun p mem same => absent (beq_iff_eq.mp same ▸ List.mem_map_of_mem mem)

/-- Of pairs that are put into a map, the last of a name counts, and else what was there. -/
theorem get?_foldl_put {pairs : List (String × α)} (distinct : (keys pairs).Nodup) (m : OrderedMap α) (key : String) :
    get? (pairs.foldl (fun m p => put p.1 p.2 m) m) key = (get? pairs key).or (get? m key) := by
  induction pairs generalizing m with
  | nil => rfl
  | cons p pairs ih =>
    rw [keys, List.map_cons, List.nodup_cons] at distinct
    rw [List.foldl_cons, ih distinct.2, get?_put, get?_cons]
    by_cases same : p.1 = key
    · rw [if_pos same, if_pos same, get?_eq_none_of_notMem (same ▸ distinct.1)]
      rfl
    · rw [if_neg same, if_neg same]

theorem mem_of_get? {m : OrderedMap α} {key : String} {a : α} (found : get? m key = some a) :
    (key, a) ∈ m := by
  rw [get?, Option.map_eq_some_iff] at found
  obtain ⟨p, found, rfl⟩ := found
  have same : p.1 = key := by simpa using List.find?_some found
  exact same ▸ List.mem_of_find?_eq_some found

theorem get?_of_mem {m : OrderedMap α} (distinct : (keys m).Nodup) {key : String} {a : α}
    (member : (key, a) ∈ m) : get? m key = some a := by
  induction m with
  | nil => contradiction
  | cons p m ih =>
    rw [keys, List.map_cons, List.nodup_cons] at distinct
    rw [get?_cons]
    obtain rfl | later := List.mem_cons.mp member
    · exact if_pos rfl
    · have other : p.1 ≠ key := fun same => distinct.1 (same ▸ List.mem_map_of_mem later)
      rw [if_neg other, ih distinct.2 later]

/-- Where no name is there twice, the order of the members does not matter. -/
theorem get?_perm {m m' : OrderedMap α} (distinct : (keys m).Nodup) (same : m.Perm m') (key : String) :
    get? m key = get? m' key := by
  have distinct' : (keys m').Nodup := (same.map _).nodup_iff.mp distinct
  ext a
  constructor
  · intro found
    exact get?_of_mem distinct' (same.mem_iff.mp (mem_of_get? found))
  · intro found
    exact get?_of_mem distinct (same.mem_iff.mpr (mem_of_get? found))

theorem mem_keys_iff {m : OrderedMap α} {key : String} : key ∈ keys m ↔ ∃ a, get? m key = some a := by
  induction m with
  | nil => simp [keys, get?]
  | cons p m ih =>
    rw [get?_cons, keys, List.map_cons, List.mem_cons]
    by_cases same : p.1 = key
    · simp [same]
    · rw [if_neg same, ← ih]
      exact ⟨fun h => h.resolve_left (Ne.symm same), .inr⟩

/-- What a map from names to values gives for some names. -/
theorem get?_tabulate (names : List String) (f : String → Option α) (key : String) :
    get? (names.filterMap fun p => (f p).map (p, ·)) key = if key ∈ names then f key else none := by
  induction names with
  | nil => rfl
  | cons p names ih =>
    rw [List.filterMap_cons]
    cases found : f p with
    | none =>
      simp only [Option.map_none, ih, List.mem_cons]
      by_cases same : key = p
      · subst same
        simp [found]
      · simp [same]
    | some a =>
      simp only [Option.map_some, get?_cons, ih, List.mem_cons]
      by_cases same : p = key
      · subst same
        simp [found]
      · simp [same, Ne.symm same]

theorem keys_tabulate_sublist (names : List String) (f : String → Option α) :
    (keys (names.filterMap fun p => (f p).map (p, ·))).Sublist names := by
  induction names with
  | nil => exact .slnil
  | cons p names ih =>
    rw [List.filterMap_cons]
    cases f p with
    | none => exact ih.cons p
    | some a => exact ih.cons_cons p

theorem keys_tabulate {names : List String} {f : String → Option α} (all : ∀ p ∈ names, ∃ a, f p = some a) :
    keys (names.filterMap fun p => (f p).map (p, ·)) = names := by
  induction names with
  | nil => rfl
  | cons p names ih =>
    obtain ⟨a, found⟩ := all p List.mem_cons_self
    rw [List.filterMap_cons, found, Option.map_some, keys, List.map_cons]
    exact congrArg (p :: ·) (ih fun q hq => all q (List.mem_cons_of_mem _ hq))

end CodeAgent.OrderedMap
