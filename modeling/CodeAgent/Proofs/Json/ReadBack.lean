import CodeAgent.Proofs.Json.Numerals

/-! Values are read back from their text, if they are read at all: a text may hold integers that are too
long and more levels than a reader takes, but nothing is read as something else. -/
namespace CodeAgent.Json
open CodeAgent.Decimal

/-- A value without floating-point numbers, with different keys in every object. -/
inductive Storable : Json → Prop
  | null : Storable .null
  | bool (b : Bool) : Storable (.bool b)
  | int (n : Int) : Storable (.int n)
  | str (s : String) : Storable (.str s)
  | arr {items : List Json} (all : ∀ v ∈ items, Storable v) : Storable (.arr items)
  | obj {fields : List (String × Json)} (distinct : (OrderedMap.keys fields).Nodup)
      (all : ∀ m ∈ fields, Storable m.2) : Storable (.obj fields)

/-- The digits of a number are read as that number, if they are not too many. -/
theorem readUnsigned_natDigits (negative : Bool) (n : Nat) {rest : List Char} (ends : Stops rest) :
    readUnsigned negative (natDigits n ++ rest) =
      (if maxIntegerDigits < (natDigits n).length then .error .integerTooLong
        else .ok (.int (if negative then -n else n), rest)) := by
  have fraction : fractionAt rest = ([], rest, false) := by
    rw [fractionAt, fractionPart?_none fun c hc => (ends c hc).2.1]
  have exponent : exponentAt rest = (0, rest, false) := by
    rw [exponentAt, exponentPart?_none fun c hc => (ends c hc).2.2]
  rw [readUnsigned, wholePart?_append (natDigits_ascii n) (natDigits_ne_nil n) (natDigits_lead n) ends.noDigit]
  simp only [fraction, exponent, Bool.or_self, numberOf, digitsValue_natDigits, Bool.false_eq_true,
    if_false]
  split <;> rfl

theorem readScalar_intDigits (n : Int) {rest : List Char} (ends : Stops rest) :
    readScalar (intDigits n ++ rest) =
      (if maxIntegerDigits < (natDigits n.natAbs).length then .error .integerTooLong
        else .ok (.int n, rest)) := by
  have signed (negative : Bool) (m : Nat) :
      readScalar ((if negative then ['-'] else []) ++ (natDigits m ++ rest)) =
        (if maxIntegerDigits < (natDigits m).length then .error .integerTooLong
          else .ok (.int (if negative then -m else m), rest)) := by
    have read := readUnsigned_natDigits negative m ends
    obtain ⟨c, cs, text⟩ := List.exists_cons_of_ne_nil (natDigits_ne_nil m)
    rw [← read, text]
    exact readScalar_signed negative (natDigits_ascii m c (text ▸ List.mem_cons_self)) _
  cases n with
  | ofNat m => exact signed false m
  | negSucc m => exact signed true (m + 1)

/-- A reader takes the text of a value, if it takes it at all, for that value. -/
def TakesFor (style : Style) (level : Nat) (value : ValueReader) (v : Json) : Prop :=
  ∀ ⦃rest after : List Char⦄ ⦃w : Json⦄, Stops rest →
    value (render style level v ++ rest) = .ok (w, after) → w = v ∧ after = rest

section straight
variable {style : Style} (straight : style.Straight)
include straight

/-- No text of a value starts with white space. -/
theorem begins_render (v : Json) (level : Nat) (rest : List Char) :
    Begins (render style level v ++ rest) := by
  have numeral {c : Char} (digit : IsAsciiDigit c) : isGap c = false := by
    obtain ⟨k, small, rfl⟩ := digit
    exact (by decide : ∀ d < 10, isGap (digitChar d) = false) k small
  match v with
  | .null | .bool true | .bool false | .str _ => simp [Begins, render, stringText, isGap]
  | .int n =>
    intro c hc
    rw [render] at hc
    obtain ⟨d, more, text⟩ := List.exists_cons_of_ne_nil (intDigits_ne_nil n)
    rw [text] at hc
    obtain rfl := Option.some.inj hc
    obtain digit | rfl := intDigits_chars n d (text ▸ List.mem_cons_self)
    · exact numeral digit
    · decide
  | .float x =>
    intro c hc
    obtain ⟨d, more, text, start⟩ := floatText_head x
    rw [render, text] at hc
    obtain rfl := Option.some.inj hc
    obtain digit | sign := start
    · exact numeral digit
    · obtain rfl | rfl | rfl : d = '-' ∨ d = 'I' ∨ d = 'N' := by simpa using sign
      all_goals decide
  | .arr [] => simp [Begins, render_arr_nil, isGap]
  | .arr (v :: vs) => rw [render_arr_cons straight]; simp [Begins, isGap]
  | .obj [] => simp [Begins, render_obj_nil, isGap]
  | .obj (m :: fs) => rw [render_obj_cons straight]; simp [Begins, isGap]

theorem start_of_mark {v : Json} {c : Char} (marked : mark v = some c) (level : Nat) (rest : List Char) :
    ∃ cs, render style level v ++ rest = c :: cs := by
  obtain ⟨d, cs, text, shape⟩ := render_head straight v level rest
  rw [marked] at shape
  split at shape
  · contradiction
  · obtain rfl := Option.some.inj shape
    exact ⟨cs, text⟩

theorem stops_itemsTail (level : Nat) (items : List Json) (rest : List Char) :
    Stops (itemsTail style level items rest) := by
  obtain ⟨gap, comma, -⟩ := straight.comma
  cases items with
  | nil => exact stops_cons (by decide)
  | cons v vs => rw [itemsTail, comma]; exact stops_cons (by decide)

theorem stops_fieldsTail (level : Nat) (fields : List (String × Json)) (rest : List Char) :
    Stops (fieldsTail style level fields rest) := by
  obtain ⟨gap, comma, -⟩ := straight.comma
  cases fields with
  | nil => exact stops_cons (by decide)
  | cons m fs => rw [fieldsTail, comma]; exact stops_cons (by decide)

theorem skipGap_itemsTail_cons (v : Json) (level : Nat) (vs : List Json)
    (rest : List Char) : ∃ more, skipGap (itemsTail style level (v :: vs) rest) = ',' :: more ∧
      skipGap more = render style level v ++ itemsTail style level vs rest := by
  obtain ⟨gap, comma, white⟩ := straight.comma
  refine ⟨gap ++ (render style level v ++ itemsTail style level vs rest), ?_,
    skipGap_append white (begins_render straight v level _)⟩
  rw [itemsTail, comma]
  rfl

theorem skipGap_fieldsTail_cons (level : Nat) (k : String) (v : Json) (fs : List (String × Json))
    (rest : List Char) : ∃ more, skipGap (fieldsTail style level ((k, v) :: fs) rest) = ',' :: more ∧
      skipGap more = memberText style level k v (fieldsTail style level fs rest) := by
  obtain ⟨gap, comma, white⟩ := straight.comma
  refine ⟨gap ++ memberText style level k v (fieldsTail style level fs rest), ?_,
    skipGap_append white (by simp [Begins, memberText, stringText, isGap])⟩
  rw [fieldsTail, comma]
  rfl

omit straight in
theorem skipGap_of_begins {cs : List Char} (begins : Begins cs) : skipGap cs = cs :=
  skipGap_append (List.forall_mem_nil _) begins

/-- What is read from the text of a scalar is that scalar. -/
theorem takesFor_scalar {v : Json} (storable : Storable v)
    (scalar : mark v ≠ some '[' ∧ mark v ≠ some '\x7b') (depth level : Nat) :
    TakesFor style level (readValue depth) v := by
  intro rest after w ends read
  have starts : StartsScalar (render style level v ++ rest) := by
    obtain ⟨c, cs, text, shape⟩ := render_head straight v level rest
    rw [text]
    intro d hd
    obtain rfl := Option.some.inj hd
    constructor
    · rintro rfl
      exact scalar.1 (by rw [shape]; decide)
    · rintro rfl
      exact scalar.2 (by rw [shape]; decide)
  rw [readValue_scalar starts] at read
  match v with
  | .null | .bool true | .bool false =>
    rw [render] at read
    obtain ⟨rfl, rfl⟩ := Prod.mk.inj (Except.ok.inj read)
    exact ⟨rfl, rfl⟩
  | .int n =>
    rw [render, readScalar_intDigits n ends] at read
    split at read
    · contradiction
    · obtain ⟨rfl, rfl⟩ := Prod.mk.inj (Except.ok.inj read)
      exact ⟨rfl, rfl⟩
  | .str s =>
    have text : readScalar (render style level (.str s) ++ rest) = .ok (.str s, rest) := by
      rw [render, stringText, List.append_assoc, List.cons_append, readScalar, List.singleton_append,
        readString_escaped]
      rfl
    rw [text] at read
    obtain ⟨rfl, rfl⟩ := Prod.mk.inj (Except.ok.inj read)
    exact ⟨rfl, rfl⟩
  | .arr _ => exact absurd rfl scalar.1
  | .obj _ => exact absurd rfl scalar.2

section parts
variable {value : ValueReader} {level n : Nat} {rest after : List Char}

omit straight in
/-- The first element is read, and then there is a comma or the end. -/
theorem first_of_readItems {v : Json} {items : List Json} (takes : TakesFor style level value v)
    (ends : Stops rest)
    (read : readItems value (n + 1) (render style level v ++ rest) = .ok (items, after)) :
    (∃ more others, skipGap rest = ',' :: more ∧
        readItems value n (skipGap more) = .ok (others, after) ∧ items = v :: others) ∨
      skipGap rest = ']' :: after ∧ items = [v] := by
  obtain ⟨item, tail, first, more⟩ := readItems_cases read
  obtain ⟨rfl, rfl⟩ := takes ends first
  exact more

theorem eq_of_readItems_render {v : Json} {vs items : List Json}
    (takes : ∀ x ∈ v :: vs, TakesFor style level value x)
    (read : readItems value n (render style level v ++ itemsTail style level vs rest) =
      .ok (items, after)) : items = v :: vs ∧ after = rest := by
  induction vs generalizing v n items with
  | nil =>
    cases n with
    | zero => contradiction
    | succ n =>
      obtain ⟨_, _, comma, -⟩ | ⟨bracket, rfl⟩ :=
        first_of_readItems (takes v List.mem_cons_self) (stops_itemsTail straight level [] rest) read
      · exact absurd (List.cons.inj comma).1 (by decide)
      · exact ⟨rfl, (List.cons.inj bracket).2.symm⟩
  | cons x xs ih =>
    have in_rest {y : Json} (hy : y ∈ x :: xs) : y ∈ v :: x :: xs := List.mem_cons_of_mem _ hy
    cases n with
    | zero => contradiction
    | succ n =>
      obtain ⟨more, comma, next⟩ :=
        skipGap_itemsTail_cons straight x level xs rest
      obtain ⟨more', others, comma', later, rfl⟩ | ⟨bracket, -⟩ :=
        first_of_readItems (takes v List.mem_cons_self) (stops_itemsTail straight level _ rest) read
      · obtain rfl := (List.cons.inj (comma.symm.trans comma')).2
        rw [next] at later
        obtain ⟨rfl, rfl⟩ := ih (fun y hy => takes y (in_rest hy)) later
        exact ⟨rfl, rfl⟩
      · exact absurd (List.cons.inj (comma.symm.trans bracket)).1 (by decide)

/-- The first member is read, and then there is a comma or the end. -/
theorem first_of_readMembers {k : String} {v : Json} {members : List (String × Json)}
    (takes : TakesFor style level value v) (ends : Stops rest)
    (read : readMembers value (n + 1) (memberText style level k v rest) = .ok (members, after)) :
    (∃ more others, skipGap rest = ',' :: more ∧
        readMembers value n (skipGap more) = .ok (others, after) ∧ members = (k, v) :: others) ∨
      skipGap rest = '}' :: after ∧ members = [(k, v)] := by
  obtain ⟨gap, colon, white⟩ := straight.colon
  obtain ⟨text, key, tail, more, item, tail', quote, named, mark, first, next⟩ :=
    readMembers_cases read
  rw [memberText, stringText, List.append_assoc, List.cons_append, List.singleton_append] at quote
  rw [← (List.cons.inj quote).2, readString_escaped] at named
  obtain ⟨rfl, rfl⟩ := Prod.mk.inj (Except.ok.inj named)
  rw [colon, List.cons_append] at mark
  have value_text : skipGap more = render style level v ++ rest := by
    rw [← (List.cons.inj mark).2]
    exact skipGap_append white (begins_render straight v level rest)
  rw [value_text] at first
  obtain ⟨rfl, rfl⟩ := takes ends first
  exact next

theorem eq_of_readMembers_render {k : String} {v : Json} {fs members : List (String × Json)}
    (takes : ∀ m ∈ (k, v) :: fs, TakesFor style level value m.2)
    (read : readMembers value n (memberText style level k v (fieldsTail style level fs rest)) =
      .ok (members, after)) : members = (k, v) :: fs ∧ after = rest := by
  induction fs generalizing k v n members with
  | nil =>
    cases n with
    | zero => contradiction
    | succ n =>
      obtain ⟨_, _, comma, -⟩ | ⟨bracket, rfl⟩ :=
        first_of_readMembers straight (takes _ List.mem_cons_self)
          (stops_fieldsTail straight level [] rest) read
      · exact absurd (List.cons.inj comma).1 (by decide)
      · exact ⟨rfl, (List.cons.inj bracket).2.symm⟩
  | cons m fs ih =>
    have in_rest {y : String × Json} (hy : y ∈ m :: fs) : y ∈ (k, v) :: m :: fs :=
      List.mem_cons_of_mem _ hy
    cases n with
    | zero => contradiction
    | succ n =>
      obtain ⟨more, comma, next⟩ := skipGap_fieldsTail_cons straight level m.1 m.2 fs rest
      obtain ⟨more', others, comma', later, rfl⟩ | ⟨bracket, -⟩ :=
        first_of_readMembers straight (takes _ List.mem_cons_self)
          (stops_fieldsTail straight level _ rest) read
      · obtain rfl := (List.cons.inj (comma.symm.trans comma')).2
        rw [next] at later
        obtain ⟨rfl, rfl⟩ := ih (fun y hy => takes y (in_rest hy)) later
        exact ⟨rfl, rfl⟩
      · exact absurd (List.cons.inj (comma.symm.trans bracket)).1 (by decide)

end parts

theorem takesFor_array {items : List Json} {depth level : Nat}
    (takes : ∀ v ∈ items, TakesFor style (level + 1) (readValue depth) v) :
    TakesFor style level (readValue (depth + 1)) (.arr items) := by
  intro rest after w _ read
  cases items with
  | nil =>
    rw [render_arr_nil] at read
    have begins : Begins (']' :: rest) := by simp [Begins, isGap]
    obtain ⟨bracket, rfl⟩ | ⟨filled, -⟩ := readValue_array_cases read
    · exact ⟨rfl, (List.cons.inj ((skipGap_of_begins begins).symm.trans bracket)).2.symm⟩
    · exact absurd (skipGap_of_begins begins) (filled rest)
  | cons v vs =>
    rw [render_arr_cons straight] at read
    have begins := begins_render straight v (level + 1)
      (itemsTail style (level + 1) vs rest)
    obtain ⟨bracket, -⟩ | ⟨-, items, rfl, parts⟩ := readValue_array_cases read
    · rw [skipGap_of_begins begins] at bracket
      exact absurd bracket (render_ne_closing straight (.inl rfl))
    · rw [skipGap_of_begins begins] at parts
      obtain ⟨rfl, rfl⟩ := eq_of_readItems_render straight takes parts
      exact ⟨rfl, rfl⟩

theorem takesFor_object {fields : List (String × Json)} (distinct : (OrderedMap.keys fields).Nodup)
    {depth level : Nat} (takes : ∀ m ∈ fields, TakesFor style (level + 1) (readValue depth) m.2) :
    TakesFor style level (readValue (depth + 1)) (.obj fields) := by
  intro rest after w _ read
  cases fields with
  | nil =>
    rw [render_obj_nil] at read
    have begins : Begins ('}' :: rest) := by simp [Begins, isGap]
    obtain ⟨bracket, rfl⟩ | ⟨filled, -⟩ := readValue_object_cases read
    · exact ⟨rfl, (List.cons.inj ((skipGap_of_begins begins).symm.trans bracket)).2.symm⟩
    · exact absurd (skipGap_of_begins begins) (filled rest)
  | cons m fs =>
    rw [render_obj_cons straight] at read
    have begins : Begins (memberText style (level + 1) m.1 m.2 (fieldsTail style (level + 1) fs rest)) := by
      simp [Begins, memberText, stringText, isGap]
    obtain ⟨bracket, -⟩ | ⟨-, members, rfl, parts⟩ := readValue_object_cases read
    · rw [skipGap_of_begins begins] at bracket
      exact absurd (List.cons.inj bracket).1 (by decide)
    · rw [skipGap_of_begins begins] at parts
      obtain ⟨rfl, rfl⟩ := eq_of_readMembers_render straight takes parts
      exact ⟨by rw [OrderedMap.ofPairs_of_nodup distinct], rfl⟩

/-- What is read from the text of a storable value is that value, and what follows it is left. -/
theorem takesFor_readValue {v : Json} (storable : Storable v) (depth level : Nat) :
    TakesFor style level (readValue depth) v := by
  induction depth generalizing v level with
  | zero =>
    cases storable with
    | arr =>
      intro rest _ _ _ read
      obtain ⟨cs, text⟩ := start_of_mark straight (v := .arr _) rfl level rest
      rw [text] at read
      contradiction
    | obj =>
      intro rest _ _ _ read
      obtain ⟨cs, text⟩ := start_of_mark straight (v := .obj _) rfl level rest
      rw [text] at read
      contradiction
    | null | bool | int | str =>
      exact takesFor_scalar straight (by constructor) (by constructor <;> simp [mark]) 0 level
  | succ depth ih =>
    cases storable with
    | arr all => exact takesFor_array straight fun v hv => ih (all v hv) (level + 1)
    | obj distinct all =>
      exact takesFor_object straight distinct fun m hm => ih (all m hm) (level + 1)
    | null | bool | int | str =>
      exact takesFor_scalar straight (by constructor) (by constructor <;> simp [mark]) _ level

end straight

theorem sortedItems_eq_map (items : List Json) : sortedItems items = items.map sorted := by
  induction items with
  | nil => rw [sortedItems, List.map_nil]
  | cons v vs ih => rw [sortedItems, ih, List.map_cons]

/-- Putting objects in order keeps a value storable. -/
theorem Storable.sorted {v : Json} (storable : Storable v) : Storable (sorted v) := by
  induction storable with
  | null | bool | int | str => rw [Json.sorted.eq_def]; constructor
  | @arr items _ ih =>
    rw [Json.sorted, sortedItems_eq_map]
    refine .arr fun v hv => ?_
    obtain ⟨x, hx, rfl⟩ := List.mem_map.mp hv
    exact ih x hx
  | @obj fields distinct _ ih =>
    rw [Json.sorted, sortedFields_eq_map]
    have order := OrderedMap.inOrder_perm (fields.map fun m => (m.1, Json.sorted m.2))
    refine .obj ?_ fun m hm => ?_
    · refine (order.map (·.1)).nodup_iff.mpr ?_
      rw [List.map_map]
      exact distinct
    · obtain ⟨x, hx, rfl⟩ := List.mem_map.mp (order.mem_iff.mp hm)
      exact ih x hx

/-- A compact text that is read at all gives back the value with its objects in order. -/
theorem eq_sorted_of_readChars?_compact {v w : Json} (storable : Storable v)
    (read : readChars? (render .compact 0 v) = .ok w) : w = sorted v := by
  rw [render_sorted rfl] at read
  obtain ⟨rest, value, -⟩ := readChars?_cases read
  rw [← List.append_nil (render _ _ _),
    skipGap_of_begins (begins_render straight_compact (Json.sorted v) 0 [])] at value
  exact (takesFor_readValue straight_compact storable.sorted maxDepth 0 (by simp [Stops]) value).1

end CodeAgent.Json
