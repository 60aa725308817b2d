import CodeAgent.Proofs.Action
import CodeAgent.Proofs.Json.RoundTrip

/-! The limits of the reader. Whatever it reads is within them, and a value whose objects are put in order while it
is written is read back if, and only if, it is within them. -/
namespace CodeAgent.Json
open CodeAgent.Decimal

/-- An integer has no more digits than are read. -/
def ShortInteger (n : Int) : Prop := (natDigits n.natAbs).length ≤ maxIntegerDigits

theorem shortInteger_of_lt {n : Int} (small : n.natAbs < 10 ^ 18) : ShortInteger n :=
  Nat.le_trans (length_natDigits_le (by decide) small) (by decide)

section fits
variable {depth : Nat}

@[simp]
theorem fits_null (depth : Nat) : Fits depth .null := .null depth

@[simp]
theorem fits_str (depth : Nat) (s : String) : Fits depth (.str s) := .str depth s

@[simp]
theorem fits_int_iff {n : Int} : Fits depth (.int n) ↔ ShortInteger n := by
  constructor
  · intro fits
    cases fits with
    | int _ short => exact short
  · exact .int depth

@[simp]
theorem fits_arr_iff {items : List Json} : Fits (depth + 1) (.arr items) ↔ ∀ v ∈ items, Fits depth v := by
  constructor
  · intro fits
    cases fits with
    | arr all => exact all
  · exact .arr

@[simp]
theorem fits_obj_iff {fields : List (String × Json)} :
    Fits (depth + 1) (.obj fields) ↔ (OrderedMap.keys fields).Nodup ∧ ∀ m ∈ fields, Fits depth m.2 := by
  constructor
  · intro fits
    cases fits with
    | obj distinct all => exact ⟨distinct, all⟩
  · exact fun ⟨distinct, all⟩ => .obj distinct all

theorem Fits.mono {v : Json} (fits : Fits depth v) {more : Nat} (le : depth ≤ more) : Fits more v := by
  induction fits generalizing more with
  | null => exact .null more
  | bool _ b => exact .bool more b
  | int _ short => exact .int more short
  | float _ x => exact .float more x
  | str _ s => exact .str more s
  | arr _ ih =>
    obtain ⟨more, rfl⟩ := Nat.exists_eq_add_one_of_ne_zero (Nat.ne_zero_of_lt le)
    exact .arr fun v hv => ih v hv (Nat.le_of_succ_le_succ le)
  | obj distinct _ ih =>
    obtain ⟨more, rfl⟩ := Nat.exists_eq_add_one_of_ne_zero (Nat.ne_zero_of_lt le)
    exact .obj distinct fun m hm => ih m hm (Nat.le_of_succ_le_succ le)

/-- The order of the keys does not count. -/
theorem fits_sorted_iff {v : Json} : Fits depth (sorted v) ↔ Fits depth v := by
  induction depth generalizing v with
  | zero =>
    cases v with
    | arr items => constructor <;> exact nofun
    | obj fields => constructor <;> exact nofun
    | _ => exact Iff.rfl
  | succ depth ih =>
    cases v with
    | arr items => simp [sorted, sortedItems_eq_map, ih]
    | obj fields =>
      have order := OrderedMap.inOrder_perm (sortedFields fields)
      have names : OrderedMap.keys (sortedFields fields) = OrderedMap.keys fields := by
        rw [sortedFields_eq_map, OrderedMap.keys, List.map_map]
        rfl
      have same : (OrderedMap.keys (OrderedMap.inOrder (sortedFields fields))).Nodup ↔
          (OrderedMap.keys fields).Nodup := by
        rw [← names]
        exact (order.map _).nodup_iff
      rw [sorted, fits_obj_iff, fits_obj_iff, same]
      simp only [order.mem_iff]
      rw [sortedFields_eq_map]
      simp only [List.forall_mem_map, ih]
    | _ => exact Iff.rfl

end fits

theorem fits_numberOf {depth : Nat} {negative isFloat : Bool} {whole fraction : List Char} {exponent : Int}
    {v : Json} (some_digit : whole ≠ []) (made : numberOf negative isFloat whole fraction exponent = .ok v) :
    Fits depth v := by
  unfold numberOf at made
  split at made
  · cases made
    exact .float depth _
  split at made
  · cases made
  · next short =>
    cases made
    have digits := length_natDigits_le (List.length_pos_iff.mpr some_digit) (digitsValue_lt whole)
    have value : (if negative = true then -(digitsValue whole : Int) else digitsValue whole).natAbs =
        digitsValue whole := by
      split <;> simp
    refine .int depth ?_
    rw [value]
    omega

theorem fits_readUnsigned {depth : Nat} {negative : Bool} {cs rest : List Char} {v : Json}
    (read : readUnsigned negative cs = .ok (v, rest)) : Fits depth v := by
  unfold readUnsigned at read
  split at read
  · cases read
  · next whole after found =>
    obtain ⟨-, some_digit, -⟩ := wholePart?_local found
    dsimp only at read
    cases made : numberOf negative ((fractionAt after).2.2 || (exponentAt (fractionAt after).2.1).2.2) whole
        (fractionAt after).1 (exponentAt (fractionAt after).2.1).1 with
    | error e =>
      rw [made] at read
      cases read
    | ok number =>
      rw [made] at read
      cases read
      exact fits_numberOf some_digit made

theorem fits_readScalar {depth : Nat} {cs rest : List Char} {v : Json} (read : readScalar cs = .ok (v, rest)) :
    Fits depth v := by
  unfold readScalar at read
  split at read
  · obtain ⟨⟨s, after⟩, -, made⟩ := exists_of_bind_eq_ok read
    cases made
    exact .str depth s
  iterate 6
    cases read
    constructor
  · unfold readNumber at read
    split at read
    · exact fits_readUnsigned read
    · exact fits_readUnsigned read

section nested
variable {value : ValueReader} {P : Json → Prop} (holds : ∀ ⦃cs v rest⦄, value cs = .ok (v, rest) → P v)
include holds

/-- What holds of every value that is read holds of the elements of an array. -/
theorem forall_readItems {n : Nat} {cs after : List Char} {items : List Json}
    (read : readItems value n cs = .ok (items, after)) : ∀ v ∈ items, P v := by
  induction n generalizing cs items with
  | zero => cases read
  | succ n ih =>
    obtain ⟨item, rest, first, ⟨more, others, -, later, rfl⟩ | ⟨-, rfl⟩⟩ := readItems_cases read
    · exact List.forall_mem_cons.mpr ⟨holds first, ih later⟩
    · exact List.forall_mem_singleton.mpr (holds first)

theorem forall_readMembers {n : Nat} {cs after : List Char} {members : List (String × Json)}
    (read : readMembers value n cs = .ok (members, after)) : ∀ m ∈ members, P m.2 := by
  induction n generalizing cs members with
  | zero => cases read
  | succ n ih =>
    obtain ⟨text, key, rest, colon, item, tail, -, -, -, first, ⟨more, others, -, later, rfl⟩ | ⟨-, rfl⟩⟩ :=
      readMembers_cases read
    · exact List.forall_mem_cons.mpr ⟨holds first, ih later⟩
    · exact List.forall_mem_singleton.mpr (holds first)

end nested

/-- Every value that is read fits. -/
theorem fits_readValue {depth : Nat} {cs rest : List Char} {v : Json} (read : readValue depth cs = .ok (v, rest)) :
    Fits depth v := by
  induction depth generalizing cs v rest with
  | zero =>
    obtain scalar | ⟨more, rfl⟩ | ⟨more, rfl⟩ := starts_cases cs
    · rw [readValue_scalar scalar] at read
      exact fits_readScalar read
    · cases read
    · cases read
  | succ depth ih =>
    obtain scalar | ⟨more, rfl⟩ | ⟨more, rfl⟩ := starts_cases cs
    · rw [readValue_scalar scalar] at read
      exact fits_readScalar read
    · obtain ⟨-, rfl⟩ | ⟨-, items, rfl, parts⟩ := readValue_array_cases read
      · exact .arr nofun
      · exact .arr (forall_readItems (fun _ _ _ => ih) parts)
    · obtain ⟨-, rfl⟩ | ⟨-, members, rfl, parts⟩ := readValue_object_cases read
      · exact .obj List.nodup_nil nofun
      · exact .obj (OrderedMap.nodup_keys_ofPairs members) fun m hm =>
          forall_readMembers (fun _ _ _ => ih) parts m (OrderedMap.mem_of_mem_ofPairs hm)

theorem fits_readChars? {cs : List Char} {v : Json} (read : readChars? cs = .ok v) : Fits maxDepth v := by
  obtain ⟨rest, value, -⟩ := readChars?_cases read
  exact fits_readValue value

/-- A value is read back from its compact text, with its objects in order, just if it fits. -/
theorem readChars?_compact_iff {v : Json} :
    readChars? (render .compact 0 v) = .ok (sorted v) ↔ Fits maxDepth v := by
  constructor
  · intro read
    exact fits_sorted_iff.mp (fits_readChars? read)
  · intro fits
    have value := readValue_render straight_compact (fits_sorted_iff.mpr fits) 0
      (show Stops [] by simp [Stops])
    have begins := begins_render straight_compact (sorted v) 0 []
    rw [List.append_nil] at value begins
    rw [render_sorted rfl, readChars?, skipGap_of_begins begins, value]
    rfl

private theorem readValue_brackets (depth more : Nat) :
    readValue depth (List.replicate (depth + 1 + more) '[') = .error .tooDeep := by
  induction depth with
  | zero => rw [Nat.zero_add, Nat.add_comm, List.replicate_succ, readValue]
  | succ depth ih =>
    have inner : List.replicate (depth + 1 + more) '[' =
        '[' :: List.replicate (depth + more) '[' := by
      rw [Nat.add_right_comm, List.replicate_succ]
    have outer : List.replicate (depth + 1 + 1 + more) '[' =
        '[' :: List.replicate (depth + 1 + more) '[' := by
      rw [Nat.add_right_comm, List.replicate_succ]
    rw [outer, readValue, inner]
    change (readItems (readValue depth) _ ('[' :: List.replicate (depth + more) '[') >>= _) = _
    rw [← inner, readItems, ih]
    rfl

/-- Brackets that open more arrays than may be nested are refused for their depth. -/
theorem read_brackets {n : Nat} (deep : maxDepth < n) :
    read (String.ofList (List.replicate n '[')) = .error .tooDeep := by
  obtain ⟨more, rfl⟩ := Nat.exists_eq_add_of_lt deep
  have kept : skipGap (List.replicate (maxDepth + more + 1) '[') =
      List.replicate (maxDepth + more + 1) '[' := by
    rw [List.replicate_succ]
    rfl
  rw [read, String.toList_ofList, readChars?, kept, Nat.add_right_comm, readValue_brackets]
  rfl

end CodeAgent.Json
