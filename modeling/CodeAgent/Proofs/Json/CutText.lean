import CodeAgent.Proofs.Json.Locality

/-! A text that is cut. What is nested too deep is so before the last bracket that opens, whatever comes after it; so a
text that is read does not become too deep by being cut and continued in words. And a text that ends in a word is no
array. -/
namespace CodeAgent.Json

/-- A text in which no array and no object opens. -/
def Flat (cs : List Char) : Prop := ∀ c ∈ cs, c ≠ '[' ∧ c ≠ '{'

theorem Flat.of_all {cs : List Char} (all : cs.all (fun c => c != '[' && c != '{') = true) : Flat cs := fun c mem => by
  simpa using List.all_eq_true.mp all c mem

theorem Flat.append {cs ds : List Char} (first : Flat cs) (second : Flat ds) : Flat (cs ++ ds) := fun c mem =>
  (List.mem_append.mp mem).elim (first c) (second c)

theorem Flat.of_append {cs ds : List Char} (flat : Flat (cs ++ ds)) : Flat ds :=
  fun c mem => flat c (List.mem_append_right cs mem)

theorem Flat.of_cons {c : Char} {cs : List Char} (flat : Flat (c :: cs)) : Flat cs :=
  fun d mem => flat d (List.mem_cons_of_mem c mem)

theorem Flat.skipGap {cs : List Char} (flat : Flat cs) : Flat (skipGap cs) := by
  obtain ⟨gap, shape, -⟩ := exists_gap cs
  rw [shape] at flat
  exact flat.of_append

/-- Two texts are the same up to a point from which on the first is flat. -/
def AgreeUntilFlat (cs ds : List Char) : Prop :=
  ∃ shared rest rest', cs = shared ++ rest ∧ ds = shared ++ rest' ∧ Flat rest

namespace AgreeUntilFlat
variable {cs ds used rest : List Char}

/-- Texts that agree until the first is flat agree in what comes before a rest that is not flat. -/
theorem split (agree : AgreeUntilFlat (used ++ rest) ds) (deep : ¬ Flat rest) :
    ∃ rest', ds = used ++ rest' ∧ AgreeUntilFlat rest rest' ∧ rest'.head? = rest.head? := by
  obtain ⟨shared, tail, tail', shape, rfl, flat⟩ := agree
  obtain ⟨more, rfl, rfl⟩ | ⟨more, rfl, rfl⟩ := List.append_eq_append_iff.mp shape
  · cases more with
    | nil => exact absurd flat deep
    | cons c more => exact ⟨c :: more ++ tail', by simp, ⟨c :: more, tail, tail', rfl, rfl, flat⟩, rfl⟩
  · exact absurd flat.of_append deep

theorem cons {c : Char} (agree : AgreeUntilFlat (c :: cs) ds) (deep : ¬ Flat (c :: cs)) :
    ∃ ds', ds = c :: ds' ∧ AgreeUntilFlat cs ds' := by
  obtain ⟨shared, tail, tail', shape, rfl, flat⟩ := agree
  cases shared with
  | nil =>
    obtain rfl : c :: cs = tail := shape
    exact absurd flat deep
  | cons d shared =>
    obtain ⟨rfl, rfl⟩ := List.cons.inj shape
    exact ⟨shared ++ tail', rfl, shared, tail, tail', rfl, rfl, flat⟩

theorem skipGap (agree : AgreeUntilFlat cs ds) (deep : ¬ Flat (skipGap cs)) :
    AgreeUntilFlat (skipGap cs) (Json.skipGap ds) ∧ (Json.skipGap ds).head? = (Json.skipGap cs).head? := by
  obtain ⟨gap, shape, white⟩ := exists_gap cs
  rw [shape] at agree
  obtain ⟨rest', rfl, later, head⟩ := agree.split deep
  have begins : Begins rest' := by
    rw [Begins, head]
    exact skipGap_begins cs
  rw [skipGap_append white begins]
  exact ⟨later, head⟩

/-- Both texts have the same mark after their white space, if the first is not flat after it. -/
theorem mark {c : Char} {more : List Char} (agree : AgreeUntilFlat cs ds) (found : Json.skipGap cs = c :: more)
    (deep : ¬ Flat more) : ∃ more', Json.skipGap ds = c :: more' ∧ AgreeUntilFlat more more' := by
  obtain ⟨later, -⟩ := agree.skipGap fun flat => deep (found ▸ flat).of_cons
  rw [found] at later
  rw [← List.singleton_append] at later
  obtain ⟨more', same, rest, -⟩ := later.split deep
  exact ⟨more', same, rest⟩

end AgreeUntilFlat

theorem readString_ne_tooDeep (cs : List Char) : readString cs ≠ .error .tooDeep := by
  unfold readString
  split <;> simp

theorem readUnsigned_ne_tooDeep (negative : Bool) (cs : List Char) : readUnsigned negative cs ≠ .error .tooDeep := by
  unfold readUnsigned numberOf
  split
  · nofun
  · dsimp only
    split
    · nofun
    · split <;> nofun

theorem readScalar_ne_tooDeep (cs : List Char) : readScalar cs ≠ .error .tooDeep := by
  unfold readScalar
  split
  · intro deep
    obtain failed | ⟨_, _, done⟩ := eq_error_of_bind deep
    · exact readString_ne_tooDeep _ failed
    · cases done
  iterate 6 nofun
  · unfold readNumber
    split <;> exact readUnsigned_ne_tooDeep _ _

/-- A value is read again from a text that agrees until what follows the value is flat. -/
theorem exists_readValue_of_agree {depth : Nat} {cs ds rest : List Char} {v : Json}
    (read : readValue depth cs = .ok (v, rest)) (agree : AgreeUntilFlat cs ds) (deep : ¬ Flat rest) (stops : Stops rest) :
    ∃ rest', readValue depth ds = .ok (v, rest') ∧ AgreeUntilFlat rest rest' ∧ rest'.length < ds.length := by
  obtain ⟨used, rfl, value⟩ := readValue_local read
  obtain ⟨rest', rfl, later, head⟩ := agree.split deep
  refine ⟨rest', value.reads depth _ le_rfl ?_, later, ?_⟩
  · rwa [Stops, head]
  · rw [List.length_append]
    exact Nat.lt_add_of_pos_left (List.length_pos_iff.mpr value.filled)

theorem stops_of_mark {cs more : List Char} {c : Char} (found : skipGap cs = c :: more)
    (ends : c = ',' ∨ c = ']' ∨ c = '}') : Stops cs := by
  obtain ⟨gap, shape, white⟩ := exists_gap cs
  rw [shape, found]
  exact stops_gap white (stops_cons ends)

/-- What follows a mark is shorter than what the mark is found in. -/
theorem length_lt_of_mark {cs more : List Char} {c : Char} (found : skipGap cs = c :: more) :
    (skipGap more).length < cs.length := by
  have after : (skipGap cs).length ≤ cs.length := (List.dropWhile_suffix isGap).length_le
  have after' : (skipGap more).length ≤ more.length := (List.dropWhile_suffix isGap).length_le
  rw [found, List.length_cons] at after
  omega

section steps
variable {value : ValueReader} {n : Nat} {cs : List Char}

/-- The elements of an array are too deep if the first one is, or the ones after it. -/
theorem readItems_tooDeep_cases (deep : readItems value (n + 1) cs = .error .tooDeep) :
    value cs = .error .tooDeep ∨ ∃ item rest more, value cs = .ok (item, rest) ∧ skipGap rest = ',' :: more ∧
      readItems value n (skipGap more) = .error .tooDeep := by
  unfold readItems at deep
  obtain failed | ⟨⟨item, rest⟩, first, later⟩ := eq_error_of_bind deep
  · exact .inl failed
  · dsimp only at later
    split at later
    · next more comma =>
      obtain failed | ⟨_, _, done⟩ := eq_error_of_bind later
      · exact .inr ⟨item, rest, more, first, comma, failed⟩
      · cases done
    · cases later
    · cases later

/-- The members of an object are too deep if the value of the first one is, or the ones after it. -/
theorem readMembers_tooDeep_cases (deep : readMembers value (n + 1) cs = .error .tooDeep) :
    ∃ text key rest colon, cs = '"' :: text ∧ readString text = .ok (key, rest) ∧ skipGap rest = ':' :: colon ∧
      (value (skipGap colon) = .error .tooDeep ∨ ∃ item tail more, value (skipGap colon) = .ok (item, tail) ∧
        skipGap tail = ',' :: more ∧ readMembers value n (skipGap more) = .error .tooDeep) := by
  unfold readMembers at deep
  split at deep
  · next text =>
    obtain failed | ⟨⟨key, rest⟩, named, later⟩ := eq_error_of_bind deep
    · exact absurd failed (readString_ne_tooDeep text)
    dsimp only at later
    split at later
    · next colon marked =>
      refine ⟨text, key, rest, colon, rfl, named, marked, ?_⟩
      obtain failed | ⟨⟨item, tail⟩, first, later⟩ := eq_error_of_bind later
      · exact .inl failed
      dsimp only at later
      split at later
      · next more comma =>
        obtain failed | ⟨_, _, done⟩ := eq_error_of_bind later
        · exact .inr ⟨item, tail, more, first, comma, failed⟩
        · cases done
      · cases later
      · cases later
    · cases later
  · cases deep

end steps

/-- A reader finds a text too deep before it gets flat. -/
def DeepBeforeFlat (depth : Nat) : Prop :=
  ∀ cs, readValue depth cs = .error .tooDeep →
    ¬ Flat cs ∧ ∀ ds, AgreeUntilFlat cs ds → readValue depth ds = .error .tooDeep

section parts
variable {depth : Nat} (value_deep : DeepBeforeFlat depth)
include value_deep

theorem readItems_deep {n : Nat} {cs : List Char} (deep : readItems (readValue depth) n cs = .error .tooDeep) :
    ¬ Flat cs ∧ ∀ m ds, AgreeUntilFlat cs ds → ds.length < m → readItems (readValue depth) m ds = .error .tooDeep := by
  induction n generalizing cs with
  | zero => cases deep
  | succ n ih =>
    obtain failed | ⟨item, rest, more, first, comma, failed⟩ := readItems_tooDeep_cases deep
    · obtain ⟨not_flat, again⟩ := value_deep cs failed
      refine ⟨not_flat, fun m ds agree enough => ?_⟩
      obtain ⟨m, rfl⟩ := Nat.exists_eq_add_of_lt enough
      rw [readItems, again ds agree]
      rfl
    · obtain ⟨not_flat, again⟩ := ih failed
      have deep_more : ¬ Flat more := fun flat => not_flat flat.skipGap
      have deep_rest : ¬ Flat rest := fun flat => deep_more (comma ▸ flat.skipGap).of_cons
      refine ⟨fun flat => ?_, fun m ds agree enough => ?_⟩
      · obtain ⟨used, rfl, -⟩ := readValue_local first
        exact deep_rest flat.of_append
      · obtain ⟨rest', first', agree', shorter⟩ :=
          exists_readValue_of_agree first agree deep_rest (stops_of_mark comma (.inl rfl))
        obtain ⟨more', comma', later⟩ := agree'.mark comma deep_more
        obtain ⟨m, rfl⟩ := Nat.exists_eq_succ_of_ne_zero (Nat.ne_of_gt (Nat.zero_lt_of_lt enough))
        have bound : (skipGap more').length < m := by
          have shorter' := length_lt_of_mark comma'
          omega
        simp only [readItems, first', bind, Except.bind, comma', again m _ (later.skipGap not_flat).1 bound]

theorem readMembers_deep {n : Nat} {cs : List Char} (deep : readMembers (readValue depth) n cs = .error .tooDeep) :
    ¬ Flat cs ∧
      ∀ m ds, AgreeUntilFlat cs ds → ds.length < m → readMembers (readValue depth) m ds = .error .tooDeep := by
  induction n generalizing cs with
  | zero => cases deep
  | succ n ih =>
    obtain ⟨text, key, rest, colon, rfl, named, marked, parts⟩ := readMembers_tooDeep_cases deep
    obtain ⟨quoted, rfl, -, named_again⟩ := readString_local named
    -- The key and the colon are read again if what follows them is not flat.
    have key_again (deep_colon : ¬ Flat colon) : ¬ Flat ('"' :: (quoted ++ '"' :: rest)) ∧
        ∀ ds, AgreeUntilFlat ('"' :: (quoted ++ '"' :: rest)) ds → ∃ rest' colon',
          ds = '"' :: (quoted ++ '"' :: rest') ∧ skipGap rest' = ':' :: colon' ∧ AgreeUntilFlat colon colon' := by
      have deep_rest : ¬ Flat rest := fun flat => deep_colon (marked ▸ flat.skipGap).of_cons
      refine ⟨fun flat => deep_rest flat.of_cons.of_append.of_cons, fun ds agree => ?_⟩
      have regroup : '"' :: (quoted ++ '"' :: rest) = '"' :: (quoted ++ ['"']) ++ rest := by simp
      rw [regroup] at agree
      obtain ⟨rest', rfl, later, -⟩ := agree.split deep_rest
      obtain ⟨colon', marked', agree'⟩ := later.mark marked deep_colon
      exact ⟨rest', colon', by simp, marked', agree'⟩
    obtain failed | ⟨item, tail, more, first, comma, failed⟩ := parts
    · obtain ⟨not_flat, again⟩ := value_deep _ failed
      obtain ⟨deep_text, text_again⟩ := key_again fun flat => not_flat flat.skipGap
      refine ⟨deep_text, fun m ds agree enough => ?_⟩
      obtain ⟨rest', colon', rfl, marked', later⟩ := text_again ds agree
      obtain ⟨m, rfl⟩ := Nat.exists_eq_add_of_lt enough
      simp only [readMembers, named_again, bind, Except.bind, marked', again _ (later.skipGap not_flat).1]
    · obtain ⟨not_flat, again⟩ := ih failed
      have deep_more : ¬ Flat more := fun flat => not_flat flat.skipGap
      have deep_tail : ¬ Flat tail := fun flat => deep_more (comma ▸ flat.skipGap).of_cons
      have deep_value : ¬ Flat (skipGap colon) := fun flat => by
        obtain ⟨used, shape, -⟩ := readValue_local first
        rw [shape] at flat
        exact deep_tail flat.of_append
      obtain ⟨deep_text, text_again⟩ := key_again fun flat => deep_value flat.skipGap
      refine ⟨deep_text, fun m ds agree enough => ?_⟩
      obtain ⟨rest', colon', rfl, marked', later⟩ := text_again ds agree
      obtain ⟨tail', first', agree', shorter⟩ :=
        exists_readValue_of_agree first (later.skipGap deep_value).1 deep_tail (stops_of_mark comma (.inl rfl))
      obtain ⟨more', comma', later'⟩ := agree'.mark comma deep_more
      obtain ⟨m, rfl⟩ := Nat.exists_eq_succ_of_ne_zero (Nat.ne_of_gt (Nat.zero_lt_of_lt enough))
      have bound : (skipGap more').length < m := by
        have shorter' := length_lt_of_mark comma'
        have shorter'' := length_lt_of_mark marked'
        simp only [List.length_cons, List.length_append] at enough
        omega
      simp only [readMembers, named_again, bind, Except.bind, marked', first', comma',
        again m _ (later'.skipGap not_flat).1 bound]

end parts

theorem not_starts {c : Char} {cs : List Char} (other : ∀ more, cs ≠ c :: more) : cs.head? ≠ some c := by
  intro head
  obtain ⟨more, rfl⟩ := List.head?_eq_some_iff.mp head
  exact other more rfl

/-- A text that is nested too deep is so before it gets flat. -/
theorem deepBeforeFlat (depth : Nat) : DeepBeforeFlat depth := by
  have array (cs : List Char) : ¬ Flat ('[' :: cs) := fun flat => (flat '[' List.mem_cons_self).1 rfl
  have object (cs : List Char) : ¬ Flat ('{' :: cs) := fun flat => (flat '{' List.mem_cons_self).2 rfl
  induction depth with
  | zero =>
    intro cs deep
    obtain scalar | ⟨more, rfl⟩ | ⟨more, rfl⟩ := starts_cases cs
    · exact absurd (readValue_scalar scalar ▸ deep) (readScalar_ne_tooDeep cs)
    · refine ⟨array more, fun ds agree => ?_⟩
      obtain ⟨more', rfl, -⟩ := agree.cons (array more)
      rfl
    · refine ⟨object more, fun ds agree => ?_⟩
      obtain ⟨more', rfl, -⟩ := agree.cons (object more)
      rfl
  | succ depth ih =>
    intro cs deep
    obtain scalar | ⟨more, rfl⟩ | ⟨more, rfl⟩ := starts_cases cs
    · exact absurd (readValue_scalar scalar ▸ deep) (readScalar_ne_tooDeep cs)
    · rw [readValue] at deep
      split at deep
      · cases deep
      · next filled =>
        obtain failed | ⟨_, _, done⟩ := eq_error_of_bind deep
        · obtain ⟨not_flat, again⟩ := readItems_deep ih failed
          refine ⟨array more, fun ds agree => ?_⟩
          obtain ⟨more', rfl, later⟩ := agree.cons (array more)
          obtain ⟨agree', head⟩ := later.skipGap not_flat
          rw [readValue]
          split
          · next bracket => exact absurd (head.symm.trans (congrArg List.head? bracket)) (not_starts filled)
          · rw [again _ _ agree' (Nat.lt_succ_self _)]
            rfl
        · cases done
    · rw [readValue] at deep
      split at deep
      · cases deep
      · next filled =>
        obtain failed | ⟨_, _, done⟩ := eq_error_of_bind deep
        · obtain ⟨not_flat, again⟩ := readMembers_deep ih failed
          refine ⟨object more, fun ds agree => ?_⟩
          obtain ⟨more', rfl, later⟩ := agree.cons (object more)
          obtain ⟨agree', head⟩ := later.skipGap not_flat
          rw [readValue]
          split
          · next bracket => exact absurd (head.symm.trans (congrArg List.head? bracket)) (not_starts filled)
          · rw [again _ _ agree' (Nat.lt_succ_self _)]
            rfl
        · cases done

/-- A text that is nested too deep is so with any other flat end. -/
theorem readChars?_tooDeep_append {cs flat : List Char} (ends : Flat flat)
    (deep : readChars? (cs ++ flat) = .error .tooDeep) (other : List Char) :
    readChars? (cs ++ other) = .error .tooDeep := by
  obtain failed | ⟨⟨v, rest⟩, _, done⟩ := eq_error_of_bind deep
  · obtain ⟨not_flat, again⟩ := deepBeforeFlat maxDepth _ failed
    have agree : AgreeUntilFlat (cs ++ flat) (cs ++ other) := ⟨cs, flat, other, rfl, rfl, ends⟩
    rw [readChars?, again _ (agree.skipGap not_flat).1]
    rfl
  · dsimp only at done
    split at done <;> cases done

/-- A text that ends in a character that is no white space and no bracket is no array. -/
theorem readChars?_ne_array {cs : List Char} {c : Char} (bracket : c ≠ ']') (ink : isGap c = false)
    (items : List Json) : readChars? (cs ++ [c]) ≠ .ok (.arr items) := by
  intro read
  obtain ⟨rest, value, blank⟩ := readChars?_cases read
  obtain ⟨depth, more, bound, starts⟩ := readValue_array_text value
  rw [bound, starts] at value
  obtain ⟨body, rfl, -⟩ := array_local readValue_local value
  obtain ⟨gap, shape, -⟩ := exists_gap (cs ++ [c])
  rw [starts] at shape
  obtain ⟨gap', split, white⟩ := exists_gap rest
  rw [blank, List.append_nil] at split
  -- The last character is the closing bracket, or white space after it.
  obtain rfl | ⟨before, final, rfl⟩ : rest = [] ∨ ∃ before final, rest = before ++ [final] := by
    simpa only [List.concat_eq_append] using List.eq_nil_or_concat rest
  · have regroup : gap ++ '[' :: (body ++ [']']) = (gap ++ '[' :: body) ++ [']'] := by simp
    have last := (List.append_inj' (shape.trans regroup) rfl).2
    exact bracket (List.singleton_inj.mp last)
  · have regroup : gap ++ '[' :: (body ++ ']' :: (before ++ [final])) =
        (gap ++ '[' :: (body ++ ']' :: before)) ++ [final] := by simp
    have last := (List.append_inj' (shape.trans regroup) rfl).2
    obtain rfl := List.singleton_inj.mp last
    rw [white c (split ▸ by simp)] at ink
    cases ink

end CodeAgent.Json
