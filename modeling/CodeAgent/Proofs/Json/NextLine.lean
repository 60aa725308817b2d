import CodeAgent.Proofs.Json.Locality
import CodeAgent.Proofs.Text.Search

/-! What is read from a text does not depend on a line after it: neither a value nor the reason why there is
none. No token goes on over a line end, and where the text ends with a closing brace or bracket, nothing that
is still open could go on with an opening one. -/
namespace CodeAgent.Json
open CodeAgent.Text

/-- Nothing, or a line after a line feed. -/
def NextLine (rest : List Char) : Prop := ∀ c ∈ rest.head?, c = '\n'

/-- What a reader leaves of a text, with a further text behind it. -/
def carry {ε α : Type} (rest : List Char) (read : Except ε (α × List Char)) : Except ε (α × List Char) :=
  read.map fun p => (p.1, p.2 ++ rest)

@[simp] theorem carry_error {ε α : Type} (rest : List Char) (e : ε) :
    carry rest (.error e : Except ε (α × List Char)) = .error e := rfl

@[simp] theorem carry_ok {ε α : Type} (rest : List Char) (a : α) (cs : List Char) :
    carry rest (.ok (a, cs) : Except ε (α × List Char)) = .ok (a, cs ++ rest) := rfl

/-- A text that does not hold the line feed stands before the next line. -/
theorem NextLine.exists_split {rest used left cs : List Char} (next : NextLine rest) (flat : '\n' ∉ used)
    (split : cs ++ rest = used ++ left) : ∃ more, cs = used ++ more ∧ left = more ++ rest := by
  obtain ⟨gap, whole, shape⟩ | ⟨more, rfl, rfl⟩ := List.append_eq_append_iff.mp split
  · cases gap with
    | nil => exact ⟨[], by simp [whole], by simp [shape]⟩
    | cons c gap =>
      obtain rfl := next c (by simp [shape])
      simp [whole] at flat
  · exact ⟨more, rfl, rfl⟩

section next_line
variable {rest : List Char} (next : NextLine rest)
include next

/-! ### Numbers -/

theorem NextLine.stops : Stops rest := by
  intro c hc
  obtain rfl := next c hc
  decide

theorem spanDigits_next (cs : List Char) :
    spanDigits (cs ++ rest) = ((spanDigits cs).1, (spanDigits cs).2 ++ rest) := by
  have stop : ∀ c ∈ rest.head?, isDigit c = false := fun c hc => (next.stops c hc).1
  simp only [spanDigits, List.span_eq_takeWhile_dropWhile]
  exact Prod.ext (takeWhile_append_of_head stop cs) (dropWhile_append_of_head stop cs)

/-- A character other than a line feed that a text with the next line starts with starts the text. -/
theorem NextLine.head_eq {cs more : List Char} {c : Char} (other : c ≠ '\n') (start : cs ++ rest = c :: more) :
    ∃ tail, cs = c :: tail ∧ more = tail ++ rest :=
  @next.exists_split _ [c] _ _ (by simpa using other.symm) start

theorem wholePart?_next (cs : List Char) :
    wholePart? (cs ++ rest) = (wholePart? cs).map fun p => (p.1, p.2 ++ rest) := by
  by_cases zero : ∃ more, cs = '0' :: more
  · obtain ⟨more, rfl⟩ := zero
    rfl
  · have other : ∀ more, cs ++ rest ≠ '0' :: more := fun more start =>
      zero ((next.head_eq (by decide) start).imp fun tail split => split.1)
    rw [wholePart?.eq_2 _ other, wholePart?.eq_2 _ fun more start => zero ⟨more, start⟩, spanDigits_next next]
    dsimp only
    split <;> rfl

theorem fractionPart?_next (cs : List Char) :
    fractionPart? (cs ++ rest) = (fractionPart? cs).map fun p => (p.1, p.2 ++ rest) := by
  by_cases point : ∃ more, cs = '.' :: more
  · obtain ⟨more, rfl⟩ := point
    rw [List.cons_append, fractionPart?, fractionPart?, spanDigits_next next]
    dsimp only
    split <;> rfl
  · have other : ∀ more, cs ++ rest ≠ '.' :: more := fun more start =>
      point ((next.head_eq (by decide) start).imp fun tail split => split.1)
    rw [fractionPart?.eq_2 _ other, fractionPart?.eq_2 _ fun more start => point ⟨more, start⟩]
    rfl

theorem fractionAt_next (cs : List Char) :
    fractionAt (cs ++ rest) = ((fractionAt cs).1, (fractionAt cs).2.1 ++ rest, (fractionAt cs).2.2) := by
  rw [fractionAt, fractionAt, fractionPart?_next next]
  cases fractionPart? cs <;> rfl

theorem signedDigits?_next (negative : Bool) (cs : List Char) :
    signedDigits? negative (cs ++ rest) = (signedDigits? negative cs).map fun p => (p.1, p.2 ++ rest) := by
  rw [signedDigits?, signedDigits?, spanDigits_next next]
  dsimp only
  split <;> rfl

theorem exponentPart?_next (cs : List Char) :
    exponentPart? (cs ++ rest) = (exponentPart? cs).map fun p => (p.1, p.2 ++ rest) := by
  cases cs with
  | nil => exact exponentPart?_none fun c hc => (next.stops c hc).2.2
  | cons e cs =>
    -- The sign is the first character after the letter, if there is one.
    by_cases minus : ∃ more, cs = '-' :: more
    · obtain ⟨more, rfl⟩ := minus
      simp only [List.cons_append, exponentPart?]
      split
      · exact signedDigits?_next next true more
      · rfl
    by_cases plus : ∃ more, cs = '+' :: more
    · obtain ⟨more, rfl⟩ := plus
      simp only [List.cons_append, exponentPart?]
      split
      · exact signedDigits?_next next false more
      · rfl
    have no_minus : ∀ more, cs ++ rest ≠ '-' :: more := fun more start =>
      minus ((next.head_eq (by decide) start).imp fun tail split => split.1)
    have no_plus : ∀ more, cs ++ rest ≠ '+' :: more := fun more start =>
      plus ((next.head_eq (by decide) start).imp fun tail split => split.1)
    rw [List.cons_append, exponentPart?.eq_3 _ _ no_minus no_plus,
      exponentPart?.eq_3 _ _ (fun more start => minus ⟨more, start⟩) fun more start => plus ⟨more, start⟩]
    split
    · exact signedDigits?_next next false cs
    · rfl

theorem exponentAt_next (cs : List Char) :
    exponentAt (cs ++ rest) = ((exponentAt cs).1, (exponentAt cs).2.1 ++ rest, (exponentAt cs).2.2) := by
  rw [exponentAt, exponentAt, exponentPart?_next next]
  cases exponentPart? cs <;> rfl

theorem readUnsigned_next (negative : Bool) (cs : List Char) :
    readUnsigned negative (cs ++ rest) = carry rest (readUnsigned negative cs) := by
  rw [readUnsigned, readUnsigned, wholePart?_next next]
  cases wholePart? cs with
  | none => rfl
  | some whole =>
    simp only [Option.map_some, fractionAt_next next, exponentAt_next next]
    generalize numberOf negative _ _ _ _ = number
    cases number <;> rfl

theorem readNumber_next (cs : List Char) : readNumber (cs ++ rest) = carry rest (readNumber cs) := by
  by_cases minus : ∃ more, cs = '-' :: more
  · obtain ⟨more, rfl⟩ := minus
    exact readUnsigned_next next true more
  · have other : ∀ more, cs ++ rest ≠ '-' :: more := fun more start =>
      minus ((next.head_eq (by decide) start).imp fun tail split => split.1)
    rw [readNumber.eq_2 _ other, readNumber.eq_2 _ fun more start => minus ⟨more, start⟩]
    exact readUnsigned_next next false cs

/-! ### Strings and words -/

end next_line

theorem newline_notMem_hexQuad {cs rest : List Char} {n : Nat} (quad : hexQuad? cs = some (n, rest)) :
    ∃ used, cs = used ++ rest ∧ '\n' ∉ used := by
  obtain ⟨a, b, c, d, rfl, hex, -⟩ := hexQuad?_local quad
  exact ⟨[a, b, c, d], rfl, fun mem => hex _ mem (by decide)⟩

theorem newline_notMem_unicodeEscape {cs rest : List Char} {c : Char} (escape : unicodeEscape? cs = some (c, rest)) :
    ∃ used, cs = used ++ rest ∧ '\n' ∉ used := by
  rw [unicodeEscape?_eq, Option.map_eq_some_iff] at escape
  obtain ⟨⟨unit, tail⟩, quad, made⟩ := escape
  obtain ⟨used, rfl, flat⟩ := newline_notMem_hexQuad quad
  rw [escapedUnit] at made
  split at made
  · split at made
    · next low after half =>
      obtain ⟨-, rfl⟩ := Prod.mk.inj made
      obtain ⟨a, b, c, d, rfl, hex, -⟩ := lowHalf?_local half
      refine ⟨used ++ ['\\', 'u', a, b, c, d], by simp, ?_⟩
      have flat' : '\n' ∉ [a, b, c, d] := fun mem => hex _ mem (by decide)
      simpa [flat] using flat'
    · exact ⟨used, by rw [← (Prod.mk.inj made).2], flat⟩
  · split at made <;> exact ⟨used, by rw [← (Prod.mk.inj made).2], flat⟩

/-- No string holds a line feed as it is. -/
theorem newline_notMem_readChars {n : Nat} {cs text rest : List Char} (read : readChars n cs = some (text, rest)) :
    ∃ used, cs = used ++ rest ∧ '\n' ∉ used := by
  fun_induction readChars n cs generalizing text rest with
  | case1 => contradiction
  | case2 => contradiction
  | case3 n cs =>
    cases read
    exact ⟨['"'], rfl, by decide⟩
  | case4 n cs ih =>
    simp only [Option.bind_eq_bind, Option.bind_eq_some_iff] at read
    obtain ⟨⟨c, tail⟩, escape, ⟨chars, after⟩, more, made⟩ := read
    cases made
    obtain ⟨digits, rfl, flat⟩ := newline_notMem_unicodeEscape escape
    obtain ⟨used, rfl, flat'⟩ := ih tail more
    exact ⟨'\\' :: 'u' :: (digits ++ used), by simp, by simp [flat, flat']⟩
  | case5 n c cs named ih =>
    simp only [Option.bind_eq_bind, Option.bind_eq_some_iff] at read
    obtain ⟨d, escape, ⟨chars, after⟩, more, made⟩ := read
    cases made
    obtain ⟨used, rfl, flat⟩ := ih more
    refine ⟨'\\' :: c :: used, rfl, ?_⟩
    have letter : '\n' ≠ c := by
      rintro rfl
      contradiction
    simp [flat, letter]
  | case6 => contradiction
  | case7 n c cs quote unicode escape fits ih =>
    rw [Option.map_eq_some_iff] at read
    obtain ⟨⟨chars, after⟩, more, made⟩ := read
    cases made
    obtain ⟨used, rfl, flat⟩ := ih more
    refine ⟨c :: used, rfl, ?_⟩
    have letter : '\n' ≠ c := by
      rintro rfl
      contradiction
    simp [flat, letter]

theorem readString_cases (cs : List Char) :
    (∃ text rest, readString cs = .ok (text, rest)) ∨ readString cs = .error .malformed := by
  rw [readString]
  split
  · exact .inl ⟨_, _, rfl⟩
  · exact .inr rfl

theorem newline_notMem_readString {cs rest : List Char} {text : String}
    (read : readString cs = .ok (text, rest)) : ∃ used, cs = used ++ rest ∧ '\n' ∉ used := by
  rw [readString] at read
  split at read
  · next chars after found =>
    cases read
    exact newline_notMem_readChars found
  · contradiction

section next_line
variable {rest : List Char} (next : NextLine rest)
include next

theorem readString_next (cs : List Char) : readString (cs ++ rest) = carry rest (readString cs) := by
  obtain ⟨text, left, read⟩ | failed := readString_cases cs
  · obtain ⟨used, rfl, -, again⟩ := readString_local read
    rw [read, List.append_assoc, List.cons_append, again]
    rfl
  · obtain ⟨text, left, read⟩ | failed' := readString_cases (cs ++ rest)
    · -- The string would end before the next line, so it would be read without that line too.
      obtain ⟨used, split, flat⟩ := newline_notMem_readString read
      obtain ⟨inner, split', -, again⟩ := readString_local read
      obtain ⟨more, rfl, rfl⟩ := next.exists_split flat split
      have whole : used ++ more = inner ++ '"' :: more := by
        have same : used ++ (more ++ rest) = (inner ++ ['"']) ++ (more ++ rest) := by
          rw [← split, split']
          simp
        rw [List.append_cancel_right same]
        simp
      rw [whole, again] at failed
      contradiction
    · rw [failed, failed']
      rfl

/-- A word that a text does not start with, it does not start with before the next line either. -/
theorem not_word_next {cs : List Char} (word : List Char) (flat : '\n' ∉ word) (other : ∀ more, cs ≠ word ++ more)
    (more : List Char) : cs ++ rest ≠ word ++ more := by
  intro start
  obtain ⟨tail, split, -⟩ := next.exists_split flat start
  exact other tail split

theorem readScalar_next (cs : List Char) : readScalar (cs ++ rest) = carry rest (readScalar cs) := by
  fun_cases readScalar cs with
  | case1 cs =>
    rw [List.cons_append, readScalar, readString_next next]
    cases readString cs <;> rfl
  | case2 | case3 | case4 | case5 | case6 | case7 => rfl
  | case8 =>
    next string null yes no notANumber infinity negative =>
    rw [readScalar]
    · exact readNumber_next next cs
    · exact not_word_next next ['"'] (by decide) string
    · exact not_word_next next ['n', 'u', 'l', 'l'] (by decide) null
    · exact not_word_next next ['t', 'r', 'u', 'e'] (by decide) yes
    · exact not_word_next next ['f', 'a', 'l', 's', 'e'] (by decide) no
    · exact not_word_next next ['N', 'a', 'N'] (by decide) notANumber
    · exact not_word_next next ['I', 'n', 'f', 'i', 'n', 'i', 't', 'y'] (by decide) infinity
    · exact not_word_next next ['-', 'I', 'n', 'f', 'i', 'n', 'i', 't', 'y'] (by decide) negative

end next_line

/-! ### Arrays and objects -/

/-- A text that ends with the closing brace of an object or the closing bracket of a tag. -/
def Ended (cs : List Char) : Prop := ∃ c ∈ cs.getLast?, c = '}' ∨ c = '>'

/-- Nothing, or a line feed and a line that starts with an opening brace or bracket, if there is one. -/
structure NextFragment (rest : List Char) : Prop where
  line : NextLine rest
  opens : ∀ c ∈ (skipGap rest).head?, c = '{' ∨ c = '<'

namespace Ended
variable {cs rest : List Char} {c : Char}

theorem ne_nil (ended : Ended cs) : cs ≠ [] := by
  rintro rfl
  obtain ⟨c, hc, -⟩ := ended
  contradiction

theorem of_suffix (ended : Ended cs) (suffix : rest <:+ cs) : rest = [] ∨ Ended rest := by
  obtain ⟨pre, rfl⟩ := suffix
  cases rest with
  | nil => exact .inl rfl
  | cons d ds =>
    refine .inr ?_
    rwa [Ended, List.getLast?_append, List.getLast?_cons, Option.some_or, ← List.getLast?_cons] at ended

/-- What is left after another character is not empty. -/
theorem tail (ended : Ended (c :: cs)) (other : c ≠ '}' ∧ c ≠ '>') : Ended cs := by
  obtain rfl | ended' := ended.of_suffix (List.suffix_cons c cs)
  · obtain ⟨d, hd, mark⟩ := ended
    cases hd
    exact absurd mark (by simp [other])
  · exact ended'

theorem skipGap (ended : Ended cs) : Ended (skipGap cs) := by
  obtain ⟨gap, split, white⟩ := exists_gap cs
  rw [split] at ended
  obtain nothing | ended' := ended.of_suffix (List.suffix_append _ _)
  · rw [nothing, List.append_nil] at ended
    obtain ⟨c, hc, mark⟩ := ended
    have blank := white c (List.mem_of_getLast? hc)
    obtain rfl | rfl := mark <;> contradiction
  · exact ended'

theorem skipGap_append (ended : Ended cs) (rest : List Char) : Json.skipGap (cs ++ rest) = Json.skipGap cs ++ rest := by
  obtain ⟨gap, split, white⟩ := exists_gap cs
  have start : Begins (Json.skipGap cs ++ []) := by
    rw [List.append_nil]
    exact skipGap_begins cs
  have begins : Begins (Json.skipGap cs ++ rest) := begins_append ended.skipGap.ne_nil start
  conv_lhs => rw [split]
  rw [List.append_assoc, Json.skipGap_append white begins]

end Ended

/-- A reader takes a part of an ended text, and does the same if another fragment follows. -/
structure Isolated (rest : List Char) (value : ValueReader) : Prop where
  carried : ∀ ⦃cs⦄, Ended cs → value (cs ++ rest) = carry rest (value cs)
  takes : ∀ ⦃cs v left⦄, value cs = .ok (v, left) → left <:+ cs ∧ left.length < cs.length

section fragments
variable {rest : List Char} (next : NextFragment rest) {value : ValueReader} (isolated : Isolated rest value)
include next

/-- After a part of an ended text, either a character of it comes next, or nothing that could go on an array or
an object. -/
theorem skipGap_cases {left : List Char} (ends : left = [] ∨ Ended left) :
    (skipGap left = [] ∧ (skipGap (left ++ rest) = [] ∨ ∃ c more, skipGap (left ++ rest) = c :: more ∧ (c = '{' ∨ c = '<'))) ∨
      ∃ c tail, skipGap left = c :: tail ∧ skipGap (left ++ rest) = c :: (tail ++ rest) ∧ Ended (c :: tail) ∧
        tail.length < left.length := by
  obtain rfl | ended := ends
  · refine .inl ⟨rfl, ?_⟩
    rw [List.nil_append]
    cases shape : skipGap rest with
    | nil => exact .inl rfl
    | cons c more => exact .inr ⟨c, more, rfl, next.opens c (by simp [shape])⟩
  · have shrinks : (skipGap left).length ≤ left.length := (List.dropWhile_suffix isGap).length_le
    have gapless := ended.skipGap
    obtain ⟨c, tail, shape⟩ := List.exists_cons_of_ne_nil gapless.ne_nil
    rw [shape] at shrinks gapless
    rw [ended.skipGap_append, shape]
    exact .inr ⟨c, tail, rfl, rfl, gapless, shrinks⟩

include isolated

theorem readItems_next {cs : List Char} (ended : Ended cs) {n m : Nat} (enough : cs.length < n) (more : cs.length < m) :
    readItems value m (cs ++ rest) = carry rest (readItems value n cs) := by
  induction n generalizing cs m with
  | zero => contradiction
  | succ n ih =>
    obtain ⟨m, rfl⟩ := Nat.exists_eq_add_one_of_ne_zero (Nat.ne_zero_of_lt more)
    rw [readItems, readItems, isolated.carried ended]
    cases first : value cs with
    | error e => rfl
    | ok made =>
      obtain ⟨item, left⟩ := made
      obtain ⟨suffix, shorter⟩ := isolated.takes first
      simp only [carry_ok, bind, Except.bind]
      obtain ⟨shape, shape' | ⟨c, tail, shape', rfl | rfl⟩⟩ | ⟨c, tail, shape, shape', gapless, shrinks⟩ :=
        skipGap_cases next (ended.of_suffix suffix)
      iterate 3
        · rw [shape, shape']
          rfl
      · rw [shape, shape']
        by_cases comma : c = ','
        · subst comma
          have inner := gapless.tail (by decide)
          have shrinks' : (skipGap tail).length ≤ tail.length := (List.dropWhile_suffix isGap).length_le
          simp only [inner.skipGap_append]
          rw [ih inner.skipGap (by omega) (by omega)]
          cases readItems value n (skipGap tail) <;> rfl
        · by_cases bracket : c = ']'
          · subst bracket
            rfl
          · simp [comma, bracket]

theorem readMembers_next {cs : List Char} (ended : Ended cs) {n m : Nat} (enough : cs.length < n) (more : cs.length < m) :
    readMembers value m (cs ++ rest) = carry rest (readMembers value n cs) := by
  induction n generalizing cs m with
  | zero => contradiction
  | succ n ih =>
    obtain ⟨m, rfl⟩ := Nat.exists_eq_add_one_of_ne_zero (Nat.ne_zero_of_lt more)
    obtain ⟨q, text, rfl⟩ := List.exists_cons_of_ne_nil ended.ne_nil
    by_cases quote : q = '"'
    · subst quote
      have ended' := ended.tail (by decide)
      rw [List.cons_append, readMembers, readMembers, readString_next next.line]
      cases named : readString text with
      | error e => rfl
      | ok made =>
        obtain ⟨key, left⟩ := made
        obtain ⟨used, rfl, -⟩ := readString_local named
        simp only [carry_ok, bind, Except.bind]
        have suffix : left <:+ used ++ '"' :: left := ⟨used ++ ['"'], by simp⟩
        obtain ⟨shape, shape' | ⟨c, tail, shape', rfl | rfl⟩⟩ | ⟨c, tail, shape, shape', gapless, shrinks⟩ :=
          skipGap_cases next (ended'.of_suffix suffix)
        iterate 3
          · rw [shape, shape']
            rfl
        · rw [shape, shape']
          by_cases colon : c = ':'
          · subst colon
            have inner := gapless.tail (by decide)
            have shrinks' : (skipGap tail).length ≤ tail.length := (List.dropWhile_suffix isGap).length_le
            simp only [inner.skipGap_append, isolated.carried inner.skipGap]
            cases first : value (skipGap tail) with
            | error e => rfl
            | ok made =>
              obtain ⟨item, left'⟩ := made
              obtain ⟨suffix', shorter⟩ := isolated.takes first
              simp only [carry_ok]
              obtain ⟨shape, shape' | ⟨c, tail', shape', rfl | rfl⟩⟩ | ⟨c, tail', shape, shape', gapless', shrinks''⟩ :=
                skipGap_cases next (inner.skipGap.of_suffix suffix')
              iterate 3
                · rw [shape, shape']
                  rfl
              · rw [shape, shape']
                by_cases comma : c = ','
                · subst comma
                  have inner' := gapless'.tail (by decide)
                  have bound : (skipGap tail').length ≤ tail'.length := (List.dropWhile_suffix isGap).length_le
                  simp only [List.length_cons, List.length_append] at enough more
                  simp only [inner'.skipGap_append]
                  rw [ih inner'.skipGap (by omega) (by omega)]
                  cases readMembers value n (skipGap tail') <;> rfl
                · by_cases bracket : c = '}'
                  · subst bracket
                    rfl
                  · simp [comma, bracket]
          · simp [colon]
    · have none (k : Nat) (ds : List Char) : readMembers value (k + 1) (q :: ds) = .error .malformed := by
        unfold readMembers
        simp [quote]
      rw [List.cons_append, none, none, carry_error]

end fragments

theorem readValue_items {depth : Nat} {cs : List Char} (filled : ∀ more, skipGap cs ≠ ']' :: more) :
    readValue (depth + 1) ('[' :: cs) =
      (readItems (readValue depth) ((skipGap cs).length + 1) (skipGap cs)).map fun p => (.arr p.1, p.2) := by
  rw [readValue]
  split
  · next bracket => exact absurd bracket (filled _)
  · cases readItems (readValue depth) _ (skipGap cs) <;> rfl

theorem readValue_members {depth : Nat} {cs : List Char} (filled : ∀ more, skipGap cs ≠ '}' :: more) :
    readValue (depth + 1) ('{' :: cs) =
      (readMembers (readValue depth) ((skipGap cs).length + 1) (skipGap cs)).map fun p =>
        (.obj (OrderedMap.ofPairs p.1), p.2) := by
  rw [readValue]
  split
  · next bracket => exact absurd bracket (filled _)
  · cases readMembers (readValue depth) _ (skipGap cs) <;> rfl

theorem carry_map {ε α β : Type} (rest : List Char) (f : α → β) (read : Except ε (α × List Char)) :
    (carry rest read).map (fun p => (f p.1, p.2)) = carry rest (read.map fun p => (f p.1, p.2)) := by
  cases read <;> rfl

section fragments
variable {rest : List Char} (next : NextFragment rest)
include next

private theorem array_next {depth : Nat} (isolated : Isolated rest (readValue depth)) {cs : List Char} (ended : Ended cs) :
    readValue (depth + 1) ('[' :: (cs ++ rest)) = carry rest (readValue (depth + 1) ('[' :: cs)) := by
  have split := ended.skipGap_append rest
  obtain ⟨c, tail, shape⟩ := List.exists_cons_of_ne_nil ended.skipGap.ne_nil
  by_cases bracket : c = ']'
  · subst bracket
    rw [shape] at split
    rw [readValue_empty_array shape, readValue_empty_array split]
    rfl
  · have filled : ∀ more, skipGap cs ≠ ']' :: more := by simp [shape, bracket]
    have filled' : ∀ more, skipGap (cs ++ rest) ≠ ']' :: more := by simp [split, shape, bracket]
    rw [readValue_items filled, readValue_items filled', split,
      readItems_next next isolated ended.skipGap (Nat.lt_succ_self _) (by rw [List.length_append]; omega)]
    exact carry_map rest Json.arr _

private theorem object_next {depth : Nat} (isolated : Isolated rest (readValue depth)) {cs : List Char} (ended : Ended cs) :
    readValue (depth + 1) ('{' :: (cs ++ rest)) = carry rest (readValue (depth + 1) ('{' :: cs)) := by
  have split := ended.skipGap_append rest
  obtain ⟨c, tail, shape⟩ := List.exists_cons_of_ne_nil ended.skipGap.ne_nil
  by_cases bracket : c = '}'
  · subst bracket
    rw [shape] at split
    rw [readValue_empty_object shape, readValue_empty_object split]
    rfl
  · have filled : ∀ more, skipGap cs ≠ '}' :: more := by simp [shape, bracket]
    have filled' : ∀ more, skipGap (cs ++ rest) ≠ '}' :: more := by simp [split, shape, bracket]
    rw [readValue_members filled, readValue_members filled', split,
      readMembers_next next isolated ended.skipGap (Nat.lt_succ_self _) (by rw [List.length_append]; omega)]
    exact carry_map rest (fun members => Json.obj (OrderedMap.ofPairs members)) _

/-- A value is read from an ended text, or is not read for some reason, whatever fragment follows. -/
theorem isolated_readValue (depth : Nat) : Isolated rest (readValue depth) := by
  have takes (depth : Nat) ⦃cs : List Char⦄ ⦃v : Json⦄ ⦃left : List Char⦄ (read : readValue depth cs = .ok (v, left)) :
      left <:+ cs ∧ left.length < cs.length := by
    obtain ⟨used, rfl, isValue⟩ := readValue_local read
    have filled := List.length_pos_iff.mpr isValue.filled
    refine ⟨List.suffix_append _ _, ?_⟩
    rw [List.length_append]
    omega
  have scalar (depth : Nat) {cs : List Char} (ended : Ended cs) (starts : StartsScalar cs) :
      readValue depth (cs ++ rest) = carry rest (readValue depth cs) := by
    have starts' : StartsScalar (cs ++ rest) := by
      obtain ⟨c, tail, rfl⟩ := List.exists_cons_of_ne_nil ended.ne_nil
      exact starts
    rw [readValue_scalar starts, readValue_scalar starts', readScalar_next next.line]
  induction depth with
  | zero =>
    refine ⟨fun cs ended => ?_, takes 0⟩
    obtain starts | ⟨more, rfl⟩ | ⟨more, rfl⟩ := starts_cases cs
    · exact scalar 0 ended starts
    · rfl
    · rfl
  | succ depth ih =>
    refine ⟨fun cs ended => ?_, takes (depth + 1)⟩
    obtain starts | ⟨more, rfl⟩ | ⟨more, rfl⟩ := starts_cases cs
    · exact scalar (depth + 1) ended starts
    · exact array_next next ih (ended.tail (by decide))
    · exact object_next next ih (ended.tail (by decide))

theorem readValue_next (depth : Nat) {cs : List Char} (ended : Ended cs) :
    readValue depth (cs ++ rest) = carry rest (readValue depth cs) :=
  (isolated_readValue next depth).carried ended

end fragments
end CodeAgent.Json
