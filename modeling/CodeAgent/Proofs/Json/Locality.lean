import CodeAgent.Proofs.Action
import CodeAgent.Proofs.Json.Scalars

/-! Reading is local: a value is read from a balanced part of a text, and from that part wherever it stands. -/
namespace CodeAgent.Json

/-- The next character is no gap. -/
def Begins (cs : List Char) : Prop := ∀ c ∈ cs.head?, isGap c = false

theorem skipGap_begins (cs : List Char) : Begins (skipGap cs) := by
  intro c hc
  have head := List.head?_dropWhile_not isGap cs
  rw [skipGap] at hc
  rw [hc] at head
  exact head

/-- White space comes apart from what follows it. -/
theorem exists_gap (cs : List Char) : ∃ gap, cs = gap ++ skipGap cs ∧ ∀ c ∈ gap, isGap c = true :=
  ⟨cs.takeWhile isGap, List.takeWhile_append_dropWhile.symm, fun _ hc => List.mem_takeWhile_imp hc⟩

theorem skipGap_append {gap cs : List Char} (white : ∀ c ∈ gap, isGap c = true) (begins : Begins cs) :
    skipGap (gap ++ cs) = cs := by
  rw [skipGap, List.dropWhile_append_of_pos white]
  cases cs with
  | nil => rfl
  | cons c cs => rw [List.dropWhile_cons, begins c rfl]; rfl

private theorem gap_eq {c : Char} (white : isGap c = true) : c = ' ' ∨ c = '\t' ∨ c = '\n' ∨ c = '\r' := by
  simpa [isGap, or_assoc] using white

theorem Balanced.gap {gap cs : List Char} (white : ∀ c ∈ gap, isGap c = true) (balanced : Balanced cs) :
    Balanced (gap ++ cs) := by
  refine (Balanced.of_plain fun c hc => ?_).append balanced
  obtain rfl | rfl | rfl | rfl := gap_eq (white c hc) <;> decide

theorem stops_gap {gap cs : List Char} (white : ∀ c ∈ gap, isGap c = true) (stops : Stops cs) :
    Stops (gap ++ cs) := by
  refine head_append (fun c hc => ?_) stops
  obtain rfl | rfl | rfl | rfl := gap_eq (white c (List.mem_of_mem_head? hc)) <;> decide

theorem stops_cons {c : Char} {cs : List Char} (end' : c = ',' ∨ c = ']' ∨ c = '}') : Stops (c :: cs) := by
  intro d hd
  cases hd
  obtain rfl | rfl | rfl := end' <;> decide

theorem begins_append {used rest other : List Char} (filled : used ≠ []) (begins : Begins (used ++ rest)) :
    Begins (used ++ other) := by
  cases used with
  | nil => contradiction
  | cons c used => exact begins

/-- A text is read as a value wherever it stands, if so many levels of arrays and objects are allowed. -/
structure IsValue (depth : Nat) (used : List Char) (v : Json) : Prop where
  filled : used ≠ []
  balanced : Balanced used
  reads : ∀ d other, depth ≤ d → Stops other → readValue d (used ++ other) = .ok (v, other)

section Steps
variable {value : ValueReader} {n : Nat} {cs rest more after : List Char} {key : String} {item : Json}
  {items : List Json} {members : List (String × Json)}

theorem readItems_more (first : value cs = .ok (item, rest)) (comma : skipGap rest = ',' :: more)
    (later : readItems value n (skipGap more) = .ok (items, after)) :
    readItems value (n + 1) cs = .ok (item :: items, after) := by
  simp only [readItems, first, bind, Except.bind, comma, later]

theorem readItems_last (first : value cs = .ok (item, rest)) (bracket : skipGap rest = ']' :: after) :
    readItems value (n + 1) cs = .ok ([item], after) := by
  simp only [readItems, first, bind, Except.bind, bracket]

/-- The elements of an array are one element, or one and the elements after a comma. -/
theorem readItems_cases (read : readItems value (n + 1) cs = .ok (items, after)) :
    ∃ item rest, value cs = .ok (item, rest) ∧
      ((∃ more others, skipGap rest = ',' :: more ∧
          readItems value n (skipGap more) = .ok (others, after) ∧ items = item :: others) ∨
        skipGap rest = ']' :: after ∧ items = [item]) := by
  rw [readItems] at read
  obtain ⟨⟨item, rest⟩, first, remaining⟩ := exists_of_bind_eq_ok read
  refine ⟨item, rest, first, ?_⟩
  dsimp only at remaining
  split at remaining
  · next more comma =>
    obtain ⟨⟨others, after'⟩, later, made⟩ := exists_of_bind_eq_ok remaining
    cases made
    exact .inl ⟨more, others, comma, later, rfl⟩
  · next bracket =>
    cases remaining
    exact .inr ⟨bracket, rfl⟩
  · contradiction

theorem readMembers_more {colon : List Char} (named : readString cs = .ok (key, rest))
    (marked : skipGap rest = ':' :: colon) {tail : List Char}
    (first : value (skipGap colon) = .ok (item, tail)) (comma : skipGap tail = ',' :: more)
    (later : readMembers value n (skipGap more) = .ok (members, after)) :
    readMembers value (n + 1) ('"' :: cs) = .ok ((key, item) :: members, after) := by
  simp only [readMembers, named, bind, Except.bind, marked, first, comma, later]

theorem readMembers_last {colon : List Char} (named : readString cs = .ok (key, rest))
    (marked : skipGap rest = ':' :: colon) {tail : List Char}
    (first : value (skipGap colon) = .ok (item, tail)) (bracket : skipGap tail = '}' :: after) :
    readMembers value (n + 1) ('"' :: cs) = .ok ([(key, item)], after) := by
  simp only [readMembers, named, bind, Except.bind, marked, first, bracket]

/-- The members of an object are one member, or one and the members after a comma. -/
theorem readMembers_cases (read : readMembers value (n + 1) cs = .ok (members, after)) :
    ∃ text key rest colon item tail, cs = '"' :: text ∧ readString text = .ok (key, rest) ∧
      skipGap rest = ':' :: colon ∧ value (skipGap colon) = .ok (item, tail) ∧
      ((∃ more others, skipGap tail = ',' :: more ∧
          readMembers value n (skipGap more) = .ok (others, after) ∧ members = (key, item) :: others) ∨
        skipGap tail = '}' :: after ∧ members = [(key, item)]) := by
  unfold readMembers at read
  split at read
  · next text =>
    obtain ⟨⟨key, rest⟩, named, remaining⟩ := exists_of_bind_eq_ok read
    dsimp only at remaining
    split at remaining
    · next colon marked =>
      obtain ⟨⟨item, tail⟩, first, remaining⟩ := exists_of_bind_eq_ok remaining
      refine ⟨text, key, rest, colon, item, tail, rfl, named, marked, first, ?_⟩
      dsimp only at remaining
      split at remaining
      · next more comma =>
        obtain ⟨⟨others, after'⟩, later, made⟩ := exists_of_bind_eq_ok remaining
        cases made
        exact .inl ⟨more, others, comma, later, rfl⟩
      · next bracket =>
        cases remaining
        exact .inr ⟨bracket, rfl⟩
      · contradiction
    · contradiction
  · contradiction

end Steps

/-- A mark with white space before it. -/
private theorem exists_mark {cs more : List Char} {c : Char} (found : skipGap cs = c :: more) :
    ∃ gap, cs = gap ++ c :: more ∧ ∀ x ∈ gap, isGap x = true := by
  obtain ⟨gap, split, white⟩ := exists_gap cs
  rw [found] at split
  exact ⟨gap, split, white⟩

private theorem skipGap_mark {gap : List Char} (white : ∀ x ∈ gap, isGap x = true) {c : Char}
    (mark : isGap c = false) (more : List Char) : skipGap (gap ++ c :: more) = c :: more :=
  skipGap_append white (by simpa [Begins] using mark)

section Parts
variable {depth : Nat}
  (value_local : ∀ {cs rest v}, readValue depth cs = .ok (v, rest) →
    ∃ used, cs = used ++ rest ∧ IsValue depth used v)
include value_local

theorem readItems_local {n : Nat} {cs rest : List Char} {items : List Json}
    (read : readItems (readValue depth) n cs = .ok (items, rest)) :
    ∃ body, cs = body ++ ']' :: rest ∧ body ≠ [] ∧ Balanced body ∧
      ∀ d m other, depth ≤ d → body.length < m →
        readItems (readValue d) m (body ++ ']' :: other) = .ok (items, other) := by
  induction n generalizing cs rest items with
  | zero => contradiction
  | succ n ih =>
    obtain ⟨item, tail, first, continued⟩ := readItems_cases read
    obtain ⟨used, rfl, isValue⟩ := value_local first
    obtain ⟨more, others, comma, later, rfl⟩ | ⟨bracket, rfl⟩ := continued
    · obtain ⟨gap, rfl, white⟩ := exists_mark comma
      obtain ⟨body, shape, filled, balanced, again⟩ := ih later
      obtain ⟨gap', split, white'⟩ := exists_gap more
      have begins := skipGap_begins more
      rw [shape] at begins split
      subst split
      refine ⟨used ++ (gap ++ ',' :: (gap' ++ body)), by simp, by simp [isValue.filled],
        isValue.balanced.append (.gap white (.plain (by decide) (.gap white' balanced))),
        fun d m other deep bound => ?_⟩
      obtain ⟨m, rfl⟩ := Nat.exists_eq_succ_of_ne_zero (Nat.ne_of_gt (Nat.zero_lt_of_lt bound))
      simp only [List.length_append, List.length_cons] at bound
      have regroup : used ++ (gap ++ ',' :: (gap' ++ body)) ++ ']' :: other =
          used ++ (gap ++ ',' :: (gap' ++ (body ++ ']' :: other))) := by simp
      rw [regroup]
      refine readItems_more (isValue.reads d _ deep (stops_gap white (stops_cons (by simp))))
        (skipGap_mark white (by decide) _) ?_
      rw [skipGap_append white' (begins_append filled begins)]
      exact again d m other deep (by omega)
    · obtain ⟨gap, rfl, white⟩ := exists_mark bracket
      refine ⟨used ++ gap, by simp, by simp [isValue.filled], ?_, fun d m other deep bound => ?_⟩
      · have whole := Balanced.gap white .nil
        rw [List.append_nil] at whole
        exact isValue.balanced.append whole
      · obtain ⟨m, rfl⟩ := Nat.exists_eq_succ_of_ne_zero (Nat.ne_of_gt (Nat.zero_lt_of_lt bound))
        rw [List.append_assoc]
        exact readItems_last (isValue.reads d _ deep (stops_gap white (stops_cons (by simp))))
          (skipGap_mark white (by decide) _)

theorem readMembers_local {n : Nat} {cs rest : List Char} {members : List (String × Json)}
    (read : readMembers (readValue depth) n cs = .ok (members, rest)) :
    ∃ body, cs = body ++ '}' :: rest ∧ body ≠ [] ∧ Balanced body ∧
      ∀ d m other, depth ≤ d → body.length < m →
        readMembers (readValue d) m (body ++ '}' :: other) = .ok (members, other) := by
  induction n generalizing cs rest members with
  | zero => contradiction
  | succ n ih =>
    obtain ⟨text, key, afterKey, colon, item, tail, rfl, named, marked, first, continued⟩ :=
      readMembers_cases read
    obtain ⟨quoted, rfl, closed, key_again⟩ := readString_local named
    obtain ⟨gap₁, rfl, white₁⟩ := exists_mark marked
    obtain ⟨gap₂, split₂, white₂⟩ := exists_gap colon
    obtain ⟨used, shape, isValue⟩ := value_local first
    have value_begins := skipGap_begins colon
    rw [shape] at value_begins split₂
    subst split₂
    have member_balanced {cs : List Char} (balanced : Balanced cs) :
        Balanced ('"' :: (quoted ++ ['"'] ++ (gap₁ ++ ':' :: (gap₂ ++ (used ++ cs))))) :=
      .string closed (.gap white₁ (.plain (by decide) (.gap white₂ (isValue.balanced.append balanced))))
    obtain ⟨more, others, comma, later, rfl⟩ | ⟨bracket, rfl⟩ := continued
    · obtain ⟨gap₃, rfl, white₃⟩ := exists_mark comma
      obtain ⟨body, shape', filled, balanced, again⟩ := ih later
      obtain ⟨gap₄, split₄, white₄⟩ := exists_gap more
      have begins := skipGap_begins more
      rw [shape'] at begins split₄
      subst split₄
      refine ⟨'"' :: (quoted ++ ['"'] ++ (gap₁ ++ ':' :: (gap₂ ++ (used ++
        (gap₃ ++ ',' :: (gap₄ ++ body)))))), by simp, by simp,
        member_balanced (.gap white₃ (.plain (by decide) (.gap white₄ balanced))),
        fun d m other deep bound => ?_⟩
      obtain ⟨m, rfl⟩ := Nat.exists_eq_succ_of_ne_zero (Nat.ne_of_gt (Nat.zero_lt_of_lt bound))
      simp only [List.length_append, List.length_cons] at bound
      have regroup : '"' :: (quoted ++ ['"'] ++ (gap₁ ++ ':' :: (gap₂ ++ (used ++
          (gap₃ ++ ',' :: (gap₄ ++ body)))))) ++ '}' :: other =
        '"' :: (quoted ++ '"' :: (gap₁ ++ ':' :: (gap₂ ++ (used ++
          (gap₃ ++ ',' :: (gap₄ ++ (body ++ '}' :: other))))))) := by simp
      have value_again (cs : List Char) : readValue d (skipGap (gap₂ ++ (used ++ (gap₃ ++ ',' :: cs)))) =
          .ok (item, gap₃ ++ ',' :: cs) := by
        rw [skipGap_append white₂ (begins_append isValue.filled value_begins)]
        exact isValue.reads d _ deep (stops_gap white₃ (stops_cons (by simp)))
      have rest_again : readMembers (readValue d) m (skipGap (gap₄ ++ (body ++ '}' :: other))) =
          .ok (others, other) := by
        rw [skipGap_append white₄ (begins_append filled begins)]
        exact again d m other deep (by omega)
      rw [regroup]
      exact readMembers_more (key_again _) (skipGap_mark white₁ (by decide) _) (value_again _)
        (skipGap_mark white₃ (by decide) _) rest_again
    · obtain ⟨gap₃, rfl, white₃⟩ := exists_mark bracket
      have last_balanced := Balanced.gap white₃ .nil
      rw [List.append_nil] at last_balanced
      refine ⟨'"' :: (quoted ++ ['"'] ++ (gap₁ ++ ':' :: (gap₂ ++ (used ++ gap₃)))), by simp, by simp,
        member_balanced last_balanced, fun d m other deep bound => ?_⟩
      obtain ⟨m, rfl⟩ := Nat.exists_eq_succ_of_ne_zero (Nat.ne_of_gt (Nat.zero_lt_of_lt bound))
      have regroup : '"' :: (quoted ++ ['"'] ++ (gap₁ ++ ':' :: (gap₂ ++ (used ++ gap₃)))) ++ '}' :: other =
        '"' :: (quoted ++ '"' :: (gap₁ ++ ':' :: (gap₂ ++ (used ++ (gap₃ ++ '}' :: other))))) := by simp
      rw [regroup]
      refine readMembers_last (key_again _) (skipGap_mark white₁ (by decide) _) ?_
        (skipGap_mark white₃ (by decide) _)
      rw [skipGap_append white₂ (begins_append isValue.filled value_begins)]
      exact isValue.reads d _ deep (stops_gap white₃ (stops_cons (by simp)))

end Parts
theorem readValue_array_cases {depth : Nat} {cs rest : List Char} {v : Json}
    (read : readValue (depth + 1) ('[' :: cs) = .ok (v, rest)) :
    skipGap cs = ']' :: rest ∧ v = .arr [] ∨
      (∀ more, skipGap cs ≠ ']' :: more) ∧ ∃ items, v = .arr items ∧
        readItems (readValue depth) ((skipGap cs).length + 1) (skipGap cs) = .ok (items, rest) := by
  rw [readValue] at read
  split at read
  · next after bracket =>
    cases read
    exact .inl ⟨bracket, rfl⟩
  · next filled =>
    obtain ⟨⟨items, after⟩, parts, made⟩ := exists_of_bind_eq_ok read
    cases made
    exact .inr ⟨fun more bracket => filled more bracket, items, rfl, parts⟩

theorem readValue_object_cases {depth : Nat} {cs rest : List Char} {v : Json}
    (read : readValue (depth + 1) ('{' :: cs) = .ok (v, rest)) :
    skipGap cs = '}' :: rest ∧ v = .obj [] ∨
      (∀ more, skipGap cs ≠ '}' :: more) ∧ ∃ members, v = .obj (OrderedMap.ofPairs members) ∧
        readMembers (readValue depth) ((skipGap cs).length + 1) (skipGap cs) = .ok (members, rest) := by
  rw [readValue] at read
  split at read
  · next after bracket =>
    cases read
    exact .inl ⟨bracket, rfl⟩
  · next filled =>
    obtain ⟨⟨members, after⟩, parts, made⟩ := exists_of_bind_eq_ok read
    cases made
    exact .inr ⟨fun more bracket => filled more bracket, members, rfl, parts⟩

theorem readValue_empty_array {depth : Nat} {cs rest : List Char} (bracket : skipGap cs = ']' :: rest) :
    readValue (depth + 1) ('[' :: cs) = .ok (.arr [], rest) := by
  rw [readValue, bracket]
  rfl

theorem readValue_empty_object {depth : Nat} {cs rest : List Char} (bracket : skipGap cs = '}' :: rest) :
    readValue (depth + 1) ('{' :: cs) = .ok (.obj [], rest) := by
  rw [readValue, bracket]
  rfl

theorem readValue_array {depth : Nat} {cs rest : List Char} {items : List Json}
    (filled : ∀ more, skipGap cs ≠ ']' :: more)
    (parts : readItems (readValue depth) ((skipGap cs).length + 1) (skipGap cs) = .ok (items, rest)) :
    readValue (depth + 1) ('[' :: cs) = .ok (.arr items, rest) := by
  rw [readValue]
  split
  · next bracket => exact absurd bracket (filled _)
  · rw [parts]
    rfl

theorem readValue_object {depth : Nat} {cs rest : List Char} {members : List (String × Json)}
    (filled : ∀ more, skipGap cs ≠ '}' :: more)
    (parts : readMembers (readValue depth) ((skipGap cs).length + 1) (skipGap cs) = .ok (members, rest)) :
    readValue (depth + 1) ('{' :: cs) = .ok (.obj (OrderedMap.ofPairs members), rest) := by
  rw [readValue]
  split
  · next bracket => exact absurd bracket (filled _)
  · rw [parts]
    rfl

private theorem ne_mark {body rest other : List Char} {c : Char} (filled : body ≠ [])
    (absent : ∀ more, body ++ rest ≠ c :: more) (more : List Char) : body ++ other ≠ c :: more := by
  cases body with
  | nil => contradiction
  | cons d body =>
    intro same
    cases same
    exact absent _ rfl

section Nested
variable {depth : Nat}
  (value_local : ∀ {cs rest v}, readValue depth cs = .ok (v, rest) →
    ∃ used, cs = used ++ rest ∧ IsValue depth used v)
include value_local

theorem array_local {cs rest : List Char} {v : Json} (read : readValue (depth + 1) ('[' :: cs) = .ok (v, rest)) :
    ∃ body, cs = body ++ ']' :: rest ∧ Balanced body ∧
      ∀ d other, depth + 1 ≤ d → readValue d ('[' :: (body ++ ']' :: other)) = .ok (v, other) := by
  obtain ⟨bracket, rfl⟩ | ⟨absent, items, rfl, parts⟩ := readValue_array_cases read
  · obtain ⟨gap, rfl, white⟩ := exists_mark bracket
    refine ⟨gap, rfl, ?_, fun d other deep => ?_⟩
    · have whole := Balanced.gap white .nil
      rwa [List.append_nil] at whole
    · obtain ⟨d, rfl⟩ := Nat.exists_eq_add_of_le' (Nat.le_of_add_left_le deep)
      exact readValue_empty_array (skipGap_mark white (by decide) _)
  · obtain ⟨body, shape, filled, balanced, again⟩ := readItems_local value_local parts
    obtain ⟨gap, split, white⟩ := exists_gap cs
    have begins := skipGap_begins cs
    rw [shape] at begins absent split
    subst split
    refine ⟨gap ++ body, by simp, .gap white balanced, fun d other deep => ?_⟩
    obtain ⟨d, rfl⟩ := Nat.exists_eq_add_of_le' (Nat.le_of_add_left_le deep)
    have skipped : skipGap (gap ++ body ++ ']' :: other) = body ++ ']' :: other := by
      rw [List.append_assoc, skipGap_append white (begins_append filled begins)]
    refine readValue_array ?_ ?_
    · rw [skipped]
      exact ne_mark filled absent
    · rw [skipped]
      exact again d _ other (by omega) (length_lt_mark body)

theorem object_local {cs rest : List Char} {v : Json} (read : readValue (depth + 1) ('{' :: cs) = .ok (v, rest)) :
    ∃ body, cs = body ++ '}' :: rest ∧ Balanced body ∧
      ∀ d other, depth + 1 ≤ d → readValue d ('{' :: (body ++ '}' :: other)) = .ok (v, other) := by
  obtain ⟨bracket, rfl⟩ | ⟨absent, members, rfl, parts⟩ := readValue_object_cases read
  · obtain ⟨gap, rfl, white⟩ := exists_mark bracket
    refine ⟨gap, rfl, ?_, fun d other deep => ?_⟩
    · have whole := Balanced.gap white .nil
      rwa [List.append_nil] at whole
    · obtain ⟨d, rfl⟩ := Nat.exists_eq_add_of_le' (Nat.le_of_add_left_le deep)
      exact readValue_empty_object (skipGap_mark white (by decide) _)
  · obtain ⟨body, shape, filled, balanced, again⟩ := readMembers_local value_local parts
    obtain ⟨gap, split, white⟩ := exists_gap cs
    have begins := skipGap_begins cs
    rw [shape] at begins absent split
    subst split
    refine ⟨gap ++ body, by simp, .gap white balanced, fun d other deep => ?_⟩
    obtain ⟨d, rfl⟩ := Nat.exists_eq_add_of_le' (Nat.le_of_add_left_le deep)
    have skipped : skipGap (gap ++ body ++ '}' :: other) = body ++ '}' :: other := by
      rw [List.append_assoc, skipGap_append white (begins_append filled begins)]
    refine readValue_object ?_ ?_
    · rw [skipped]
      exact ne_mark filled absent
    · rw [skipped]
      exact again d _ other (by omega) (length_lt_mark body)

end Nested

theorem starts_cases (cs : List Char) :
    StartsScalar cs ∨ (∃ more, cs = '[' :: more) ∨ ∃ more, cs = '{' :: more := by
  cases cs with
  | nil => exact .inl (by simp [StartsScalar])
  | cons c cs =>
    by_cases array : c = '['
    · exact .inr (.inl ⟨cs, by rw [array]⟩)
    · by_cases object : c = '{'
      · exact .inr (.inr ⟨cs, by rw [object]⟩)
      · refine .inl fun d hd => ?_
        cases hd
        exact ⟨array, object⟩

private theorem scalar_local {depth : Nat} {cs rest : List Char} {v : Json} (starts : StartsScalar cs)
    (read : readValue depth cs = .ok (v, rest)) : ∃ used, cs = used ++ rest ∧ IsValue depth used v := by
  rw [readValue_scalar starts] at read
  obtain ⟨used, rfl, filled, starts, balanced, -, again⟩ := readScalar_local read
  refine ⟨used, rfl, filled, balanced, fun d other _ stops => ?_⟩
  have starts' : StartsScalar (used ++ other) := by
    cases used with
    | nil => contradiction
    | cons c used => exact starts
  rw [readValue_scalar starts', again other stops]

private theorem isValue_nested {depth : Nat} {opening closing : Char} {body : List Char} {v : Json}
    (pair : (opening, closing) ∈ brackets) (balanced : Balanced body)
    (again : ∀ d other, depth ≤ d → readValue d (opening :: (body ++ closing :: other)) = .ok (v, other)) :
    IsValue depth (opening :: (body ++ [closing])) v where
  filled := by simp
  balanced := .nested pair balanced .nil
  reads d other deep _ := by
    have regroup : opening :: (body ++ [closing]) ++ other = opening :: (body ++ closing :: other) := by
      simp
    rw [regroup, again d other deep]

/-- A value is read from a part of a text, and from that part wherever it stands. -/
theorem readValue_local {depth : Nat} {cs rest : List Char} {v : Json}
    (read : readValue depth cs = .ok (v, rest)) : ∃ used, cs = used ++ rest ∧ IsValue depth used v := by
  induction depth generalizing cs rest v with
  | zero =>
    obtain starts | ⟨more, rfl⟩ | ⟨more, rfl⟩ := starts_cases cs
    · exact scalar_local starts read
    · contradiction
    · contradiction
  | succ depth ih =>
    obtain starts | ⟨more, rfl⟩ | ⟨more, rfl⟩ := starts_cases cs
    · exact scalar_local starts read
    · obtain ⟨body, rfl, balanced, again⟩ := array_local ih read
      exact ⟨'[' :: (body ++ [']']), by simp, isValue_nested (by decide) balanced again⟩
    · obtain ⟨body, rfl, balanced, again⟩ := object_local ih read
      exact ⟨'{' :: (body ++ ['}']), by simp, isValue_nested (by decide) balanced again⟩

/-- A text by itself is read as the value that it is read as wherever it stands. -/
theorem readChars?_of_reads {depth : Nat} {used : List Char} {v : Json} (begins : Begins used)
    (reads : ∀ d, depth ≤ d → readValue d used = .ok (v, [])) (bound : depth ≤ maxDepth) :
    readChars? used = .ok v := by
  have kept : skipGap ([] ++ used) = used := skipGap_append (by simp) begins
  rw [readChars?, ← List.nil_append used, kept, reads maxDepth bound]
  rfl

/-- An object is a balanced text between braces, and is the same object when that text is by itself. -/
theorem readValue_object_text {depth : Nat} {cs rest : List Char} {fields : List (String × Json)}
    (bound : depth ≤ maxDepth) (read : readValue depth cs = .ok (.obj fields, rest)) :
    ∃ body, cs = '{' :: (body ++ '}' :: rest) ∧ Balanced body ∧
      readChars? ('{' :: (body ++ ['}'])) = .ok (.obj fields) := by
  obtain starts | ⟨more, rfl⟩ | ⟨more, rfl⟩ := starts_cases cs
  · rw [readValue_scalar starts] at read
    obtain ⟨_, _, _, _, _, scalar, _⟩ := readScalar_local read
    exact absurd scalar.2 (by simp [obj?])
  · cases depth with
    | zero => contradiction
    | succ depth =>
      obtain ⟨-, same⟩ | ⟨-, _, same, -⟩ := readValue_array_cases read
      · contradiction
      · contradiction
  · cases depth with
    | zero => contradiction
    | succ depth =>
      obtain ⟨body, rfl, balanced, again⟩ := object_local readValue_local read
      exact ⟨body, rfl, balanced, readChars?_of_reads (by simp [Begins, isGap])
        (fun d deep => again d [] deep) bound⟩

/-- An array starts with a bracket. -/
theorem readValue_array_text {depth : Nat} {cs rest : List Char} {items : List Json}
    (read : readValue depth cs = .ok (.arr items, rest)) :
    ∃ d more, depth = d + 1 ∧ cs = '[' :: more := by
  obtain starts | ⟨more, rfl⟩ | ⟨more, rfl⟩ := starts_cases cs
  · rw [readValue_scalar starts] at read
    obtain ⟨_, _, _, _, _, scalar, _⟩ := readScalar_local read
    exact absurd scalar.1 (by simp [arr?])
  · cases depth with
    | zero => contradiction
    | succ depth => exact ⟨depth, more, rfl, rfl⟩
  · cases depth with
    | zero => contradiction
    | succ depth =>
      obtain ⟨-, same⟩ | ⟨-, _, same, -⟩ := readValue_object_cases read
      · contradiction
      · contradiction

/-- A whole text is a value with white space around it. -/
theorem readChars?_cases {cs : List Char} {v : Json} (read : readChars? cs = .ok v) :
    ∃ rest, readValue maxDepth (skipGap cs) = .ok (v, rest) ∧ skipGap rest = [] := by
  obtain ⟨⟨value, rest⟩, first, remaining⟩ := exists_of_bind_eq_ok read
  dsimp only at remaining
  split at remaining
  · next done =>
    cases remaining
    exact ⟨rest, first, List.isEmpty_iff.mp done⟩
  · contradiction

end CodeAgent.Json
