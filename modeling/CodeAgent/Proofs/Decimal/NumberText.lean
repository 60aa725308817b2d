import CodeAgent.Proofs.Decimal.Digits
import CodeAgent.Proofs.Decimal.Shortest

/-! The text of a floating-point number tells it from every other one. -/
namespace CodeAgent.Decimal
open CodeAgent.Text

/-- A text is all digits below ten in ASCII. -/
def AllDigits (cs : List Char) : Prop := ∀ c ∈ cs, IsAsciiDigit c

namespace AllDigits

theorem append {cs ds : List Char} (first : AllDigits cs) (second : AllDigits ds) : AllDigits (cs ++ ds) :=
  fun c hc => (List.mem_append.mp hc).elim (first c) (second c)

theorem zeros (n : Nat) : AllDigits (List.replicate n '0') :=
  fun _ hc => ⟨0, by decide, List.eq_of_mem_replicate hc⟩

theorem notMem {cs : List Char} (digits : AllDigits cs) {c : Char} (other : ∀ n < 10, digitChar n ≠ c) :
    c ∉ cs :=
  fun hc => (digits c hc).ne other rfl

end AllDigits

theorem digitsValue_zero : digitsValue ['0'] = 0 := digitsValue_zeros 1

/-- Digits before and after a point that have the value of other digits with `n` zeros, scaled by
`10 ^ shift`. A zero leads them only where it stands alone. -/
structure Positional (digits : List Char) (n shift : Nat) (whole fraction : List Char) : Prop where
  whole_filled : whole ≠ []
  whole_digits : AllDigits whole
  fraction_filled : fraction ≠ []
  fraction_digits : AllDigits fraction
  value : digitsValue (whole ++ fraction) * 10 ^ shift = digitsValue digits * 10 ^ n * 10 ^ fraction.length
  fraction_short : 0 < shift → fraction.length ≤ shift
  lead : whole = ['0'] ∨ whole.head? = digits.head?

/-- The value of the digits around the point, as far as its scale goes beyond those after it. -/
theorem Positional.scaled_value {digits whole fraction : List Char} {n shift : Nat}
    (parts : Positional digits n shift whole fraction) (short : fraction.length ≤ shift) :
    digitsValue (whole ++ fraction) * 10 ^ (shift - fraction.length) = digitsValue digits * 10 ^ n := by
  apply Nat.eq_of_mul_eq_mul_right (Nat.pow_pos (by decide) : 0 < 10 ^ fraction.length)
  rw [← parts.value, Nat.mul_assoc, ← pow_add, Nat.sub_add_cancel short]

/-- Positional text is digits around one point. -/
theorem pointed_eq {digits : List Char} {point : Int} {n shift : Nat} (all : AllDigits digits)
    (filled : digits ≠ []) (place : (n : Int) = point + shift - digits.length) :
    ∃ whole fraction, pointed digits point = whole ++ '.' :: fraction ∧
      Positional digits n shift whole fraction := by
  rw [pointed]
  split
  · have exponent : shift = n + ((-point).toNat + digits.length) := by omega
    refine ⟨['0'], List.replicate (-point).toNat '0' ++ digits, rfl, {
      whole_filled := by simp
      whole_digits := .zeros 1
      fraction_filled := by simp [filled]
      fraction_digits := (AllDigits.zeros _).append all
      value := ?_
      fraction_short := fun _ => by simp; omega
      lead := .inl rfl }⟩
    rw [digitsValue_append, digitsValue_append, digitsValue_zeros, exponent, List.length_append,
      List.length_replicate, digitsValue_zero]
    ring
  split
  · have exponent : n = point.toNat - digits.length + shift := by omega
    refine ⟨digits ++ List.replicate (point.toNat - digits.length) '0', ['0'], by simp, {
      whole_filled := by simp [filled]
      whole_digits := all.append (.zeros _)
      fraction_filled := by simp
      fraction_digits := .zeros 1
      value := ?_
      fraction_short := fun some => some
      lead := .inr (List.head?_append_of_ne_nil _ filled) }⟩
    rw [digitsValue_append, digitsValue_append, digitsValue_zeros, digitsValue_zero, exponent,
      List.length_replicate]
    ring
  · have exponent : shift = n + (digits.length - point.toNat) := by omega
    have inside : point.toNat ≠ 0 := by omega
    refine ⟨digits.take point.toNat, digits.drop point.toNat, rfl, {
      whole_filled := by simp [filled, inside]
      whole_digits := fun c hc => all c (List.mem_of_mem_take hc)
      fraction_filled := by simp; omega
      fraction_digits := fun c hc => all c (List.mem_of_mem_drop hc)
      value := ?_
      fraction_short := fun _ => by simp; omega
      lead := .inr (by rw [List.head?_take, if_neg inside]) }⟩
    rw [List.take_append_drop, List.length_drop, exponent]
    ring

theorem mantissaText_filter {digits : List Char} (all : AllDigits digits) (filled : digits ≠ []) :
    (mantissaText digits).filter (· != '.') = digits := by
  have plain : digits.filter (· != '.') = digits :=
    List.filter_eq_self.mpr fun c hc => bne_iff_ne.mpr ((all c hc).ne (by decide))
  fun_cases mantissaText digits with
  | case1 => exact absurd rfl filled
  | case2 => exact plain
  | case3 d ds =>
    have first : (d != '.') = true := bne_iff_ne.mpr ((all d List.mem_cons_self).ne (by decide))
    rw [List.filter_cons, if_pos first] at plain ⊢
    rwa [List.filter_cons, if_neg (by decide)]

theorem mantissaText_chars {digits : List Char} (all : AllDigits digits) :
    ∀ c ∈ mantissaText digits, IsAsciiDigit c ∨ c = '.' := by
  fun_cases mantissaText digits with
  | case1 => exact fun c hc => .inl (AllDigits.zeros 1 c hc)
  | case2 => exact fun c hc => .inl (all c hc)
  | case3 d ds =>
    intro c hc
    rw [List.mem_cons, List.mem_cons] at hc
    obtain rfl | rfl | hc := hc
    · exact .inl (all _ List.mem_cons_self)
    · exact .inr rfl
    · exact .inl (all c (List.mem_cons_of_mem _ hc))

theorem e_notMem_mantissaText {digits : List Char} (all : AllDigits digits) : 'e' ∉ mantissaText digits := by
  intro h
  obtain digit | dot := mantissaText_chars all 'e' h
  · exact digit.ne (by decide) rfl
  · exact absurd dot (by decide)

/-- The sign and the digits of an exponent make its value. -/
theorem exponentText_eq (e : Int) : ∃ sign digits, exponentText e = sign :: digits ∧
    (sign = '-' ∨ sign = '+') ∧ AllDigits digits ∧ digits ≠ [] ∧
      e = if sign = '-' then -(digitsValue digits : Int) else digitsValue digits := by
  obtain ⟨digits, made, all, filled, value⟩ : ∃ digits,
      (if (natDigits e.natAbs).length < 2 then '0' :: natDigits e.natAbs else natDigits e.natAbs) =
        digits ∧ AllDigits digits ∧ digits ≠ [] ∧ digitsValue digits = e.natAbs := by
    refine ⟨_, rfl, ?_, by split <;> simp [natDigits_ne_nil], ?_⟩
    · split
      · exact (AllDigits.zeros 1).append (natDigits_ascii _)
      · exact natDigits_ascii _
    · split
      · rw [← List.singleton_append, digitsValue_append, digitsValue_natDigits, digitsValue_zero,
          Nat.zero_mul, Nat.zero_add]
      · exact digitsValue_natDigits _
  refine ⟨if e < 0 then '-' else '+', digits, by rw [exponentText, made], ?_, all, filled, ?_⟩
  · split <;> simp
  · rw [value]
    by_cases negative : e < 0
    · rw [if_pos negative, if_pos rfl]
      omega
    · rw [if_neg negative, if_neg (by decide)]
      omega

theorem exponentText_injective {e f : Int} (same : exponentText e = exponentText f) : e = f := by
  obtain ⟨sign, digits, first, -, -, -, he⟩ := exponentText_eq e
  obtain ⟨sign', digits', second, -, -, -, hf⟩ := exponentText_eq f
  obtain ⟨rfl, rfl⟩ := List.cons.inj (first.symm.trans (same.trans second))
  rw [he, hf]

theorem e_notMem_exponentText (e : Int) : 'e' ∉ exponentText e := by
  obtain ⟨sign, digits, made, other, all, -⟩ := exponentText_eq e
  rw [made, List.mem_cons, not_or]
  exact ⟨by obtain rfl | rfl := other <;> decide, all.notMem (by decide)⟩

theorem e_mem_scientific {digits : List Char} {point : Int} : 'e' ∈ scientific digits point :=
  List.mem_append_right _ List.mem_cons_self

theorem Positional.e_notMem {digits whole fraction : List Char} {n shift : Nat}
    (parts : Positional digits n shift whole fraction) : 'e' ∉ whole ++ '.' :: fraction := by
  have letter : ∀ n < 10, digitChar n ≠ 'e' := by decide
  simp [parts.whole_digits.notMem letter, parts.fraction_digits.notMem letter]

theorem scientific_injective {ds es : List Char} {p q : Int} (hd : AllDigits ds) (he : AllDigits es)
    (filled : ds ≠ []) (filled' : es ≠ []) (same : scientific ds p = scientific es q) :
    ds = es ∧ p = q := by
  obtain ⟨mantissa, -, exponent⟩ := (List.append_cons_inj_of_notMem (e_notMem_mantissaText hd)
    (e_notMem_exponentText _)).mp same
  have digits := congrArg (List.filter (· != '.')) mantissa
  rw [mantissaText_filter hd filled, mantissaText_filter he filled'] at digits
  have point := exponentText_injective exponent
  exact ⟨digits, by omega⟩

/-- The characters of numerals. -/
def IsNumeralChar (c : Char) : Prop := IsAsciiDigit c ∨ c ∈ ['.', 'e', '-', '+']

namespace Scaled

/-- The text of a decimal shows its digits without zeros at their ends, and the place of the point. -/
theorem exists_digits {s : Scaled} (positive : 0 < s.digits) :
    ∃ (digits : List Char) (zeros : Nat) (point : Int), AllDigits digits ∧ digits ≠ [] ∧
      digits.head? ≠ some '0' ∧ s.digits = digitsValue digits * 10 ^ zeros ∧
      (↑(zeros + s.exponent) : Int) = point + 400 - digits.length ∧
      s.text = if -4 < point ∧ point ≤ 16 then pointed digits point else scientific digits point := by
  obtain ⟨digits, zeros, all, shown⟩ : ∃ digits zeros,
      natDigits s.digits = digits ++ List.replicate zeros '0' ∧
      ((natDigits s.digits).reverse.dropWhile (· == '0')).reverse = digits := by
    refine ⟨_, ((natDigits s.digits).reverse.takeWhile (· == '0')).length, ?_, rfl⟩
    have zeros : (natDigits s.digits).reverse.takeWhile (· == '0') =
        List.replicate ((natDigits s.digits).reverse.takeWhile (· == '0')).length '0' :=
      List.eq_replicate_of_mem fun c hc => eq_of_beq (List.mem_takeWhile_imp (p := (· == '0')) hc)
    rw [← List.reverse_replicate, ← zeros, ← List.reverse_append, List.takeWhile_append_dropWhile,
      List.reverse_reverse]
  have value : s.digits = digitsValue digits * 10 ^ zeros := by
    rw [← digitsValue_natDigits s.digits, all, digitsValue_append, digitsValue_zeros,
      List.length_replicate, Nat.add_zero]
  have length : (natDigits s.digits).length = digits.length + zeros := by
    rw [all, List.length_append, List.length_replicate]
  have filled : digits ≠ [] := by
    rintro rfl
    rw [digitsValue_nil, Nat.zero_mul] at value
    omega
  have head := natDigits_head positive
  rw [all, List.head?_append_of_ne_nil _ filled] at head
  refine ⟨digits, zeros, (natDigits s.digits).length + s.exponent - 400, ?_, filled, head, value, by omega, ?_⟩
  · exact fun c hc => natDigits_ascii s.digits c (all ▸ List.mem_append_left _ hc)
  · rw [text, shown]

theorem numerator_eq_of_text_eq {s t : Scaled} (hs : 0 < s.digits) (ht : 0 < t.digits)
    (same : s.text = t.text) : s.numerator = t.numerator := by
  obtain ⟨ds, m, p, allDs, filledDs, -, valueS, placeS, textS⟩ := exists_digits hs
  obtain ⟨es, n, q, allEs, filledEs, -, valueT, placeT, textT⟩ := exists_digits ht
  obtain ⟨shift, hshift⟩ : ∃ shift : Nat, (400 : Int) = shift := ⟨400, rfl⟩
  rw [hshift] at placeS placeT
  suffices digitsValue ds * 10 ^ (m + s.exponent) = digitsValue es * 10 ^ (n + t.exponent) by
    rw [pow_add, pow_add, ← mul_assoc, ← mul_assoc, ← valueS, ← valueT] at this
    rw [numerator, numerator, Nat.pow_eq, Nat.pow_eq, Nat.mul_assoc, this, ← Nat.mul_assoc]
  obtain ⟨whole, fraction, pointedS, partsS⟩ := pointed_eq allDs filledDs placeS
  obtain ⟨whole', fraction', pointedT, partsT⟩ := pointed_eq allEs filledEs placeT
  rw [textS, textT] at same
  split at same <;> split at same
  · rw [pointedS, pointedT] at same
    obtain ⟨rfl, -, rfl⟩ := (List.append_cons_inj_of_notMem (partsS.whole_digits.notMem (by decide))
      (partsS.fraction_digits.notMem (by decide))).mp same
    exact Nat.eq_of_mul_eq_mul_right (Nat.pow_pos (by decide)) (partsS.value.symm.trans partsT.value)
  · exact absurd (pointedS ▸ same ▸ e_mem_scientific) partsS.e_notMem
  · exact absurd (pointedT ▸ same ▸ e_mem_scientific) partsT.e_notMem
  · obtain ⟨rfl, rfl⟩ := scientific_injective allDs allEs filledDs filledEs same
    have power : m + s.exponent = n + t.exponent := by omega
    rw [power]

/-- The text of a positive decimal starts with a digit. -/
theorem text_head {s : Scaled} (positive : 0 < s.digits) :
    ∃ c cs, s.text = c :: cs ∧ IsAsciiDigit c := by
  obtain ⟨ds, n, p, all, filled, -, -, place, shown⟩ := exists_digits positive
  rw [shown]
  split
  · obtain ⟨whole, fraction, made, parts⟩ := @pointed_eq _ _ _ 400 all filled place
    obtain ⟨c, cs, rfl⟩ := List.exists_cons_of_ne_nil parts.whole_filled
    exact ⟨c, _, made, parts.whole_digits c List.mem_cons_self⟩
  · obtain ⟨c, cs, rfl⟩ := List.exists_cons_of_ne_nil filled
    cases cs <;> exact ⟨c, _, rfl, all c List.mem_cons_self⟩

/-- The text of a positive decimal is not that of zero. -/
theorem text_ne_zero {s : Scaled} (positive : 0 < s.digits) : s.text ≠ ['0', '.', '0'] := by
  intro same
  obtain ⟨ds, n, p, all, filled, -, value, place, shown⟩ := exists_digits positive
  obtain ⟨shift, hshift⟩ : ∃ shift : Nat, (400 : Int) = shift := ⟨400, rfl⟩
  rw [hshift] at place
  rw [shown] at same
  split at same
  · obtain ⟨whole, fraction, made, parts⟩ := pointed_eq all filled place
    have split : whole ++ '.' :: fraction = ['0'] ++ '.' :: ['0'] := made.symm.trans same
    obtain ⟨rfl, -, rfl⟩ := (List.append_cons_inj_of_notMem (parts.whole_digits.notMem (by decide))
      (parts.fraction_digits.notMem (by decide))).mp split
    have read := parts.value
    have zero : digitsValue (['0'] ++ ['0']) = 0 := digitsValue_zeros 2
    rw [zero, Nat.zero_mul, eq_comm, Nat.mul_eq_zero, Nat.mul_eq_zero] at read
    have nothing : digitsValue ds = 0 := by simpa using read
    rw [nothing, Nat.zero_mul] at value
    omega
  · have letter : 'e' ∈ ['0', '.', '0'] := same ▸ e_mem_scientific
    exact absurd letter (by decide)

theorem text_chars {s : Scaled} (positive : 0 < s.digits) : ∀ c ∈ s.text, IsNumeralChar c := by
  obtain ⟨ds, n, p, all, filled, -, -, place, shown⟩ := exists_digits positive
  intro c hc
  rw [shown] at hc
  split at hc
  · obtain ⟨whole, fraction, made, parts⟩ := @pointed_eq _ _ _ 400 all filled place
    rw [made, List.mem_append, List.mem_cons] at hc
    obtain hc | rfl | hc := hc
    · exact .inl (parts.whole_digits c hc)
    · exact .inr (by simp)
    · exact .inl (parts.fraction_digits c hc)
  · obtain ⟨sign, digits, made, mark, all', -⟩ := exponentText_eq (p - 1)
    rw [scientific, made, List.mem_append, List.mem_cons, List.mem_cons] at hc
    obtain hc | rfl | rfl | hc := hc
    · exact (mantissaText_chars all c hc).imp_right fun dot => by simp [dot]
    · exact .inr (by simp)
    · exact .inr (by obtain rfl | rfl := mark <;> simp)
    · exact .inl (all' c hc)

/-- A decimal is no integer to look at: there is a point in its text, or an exponent. -/
theorem text_mark {s : Scaled} (positive : 0 < s.digits) : '.' ∈ s.text ∨ 'e' ∈ s.text := by
  obtain ⟨ds, n, p, all, filled, -, -, place, shown⟩ := exists_digits positive
  rw [shown]
  split
  · obtain ⟨whole, fraction, made, -⟩ := @pointed_eq _ _ _ 400 all filled place
    exact .inl (made ▸ List.mem_append_right _ List.mem_cons_self)
  · exact .inr e_mem_scientific

theorem readsBack_congr {s t : Scaled} (same : s.numerator = t.numerator) (b : Binary) :
    s.readsBack b = t.readsBack b := by
  rw [readsBack, readsBack, same]

end Scaled

/-- A word for what is no finite number: no numeral starts like it. -/
def IsWord (w : String) : Prop :=
  ∃ c cs, w.toList = c :: cs ∧ c ≠ '-' ∧ ¬ IsAsciiDigit c

/-- The words of a format are told from each other and from numerals. -/
structure FloatFormat.Distinct (f : FloatFormat) : Prop where
  infinity : IsWord f.infinity
  notANumber : IsWord f.notANumber
  different : f.infinity ≠ f.notANumber

namespace FloatFormat
variable {f : FloatFormat}

/-- What stands after the sign is the word for infinity, zero, or a decimal that reads back. -/
theorem magnitude_cases (f : FloatFormat) (x : Float) :
    ((Binary.ofFloat x).mantissa = 2 ^ 52 ∧ (Binary.ofFloat x).exponent = 2046 ∧
      f.magnitude x = f.infinity.toList) ∨
    ((Binary.ofFloat x).mantissa = 0 ∧ (Binary.ofFloat x).exponent = 0 ∧
      f.magnitude x = ['0', '.', '0']) ∨
    ∃ s : Scaled, 0 < s.digits ∧ s.readsBack (Binary.ofFloat x) = true ∧ f.magnitude x = s.text := by
  rw [magnitude]
  split
  · next infinite =>
    obtain ⟨mantissa, exponent⟩ := Binary.ofFloat_of_isInf infinite
    exact .inl ⟨mantissa, exponent, rfl⟩
  split
  · next zero =>
    have full := (Binary.normal_ofFloat x).full
    exact .inr (.inl ⟨zero, by omega, rfl⟩)
  · obtain ⟨positive, read⟩ := shortest_readsBack (Binary.ofFloat x)
    exact .inr (.inr ⟨_, positive, read, rfl⟩)

theorem magnitude_head (distinct : f.Distinct) (x : Float) :
    ∃ c cs, f.magnitude x = c :: cs ∧ c ≠ '-' ∧
      (IsAsciiDigit c ∨ f.magnitude x = f.infinity.toList) := by
  have minus : ∀ n < 10, digitChar n ≠ '-' := by decide
  obtain ⟨-, -, shown⟩ | ⟨-, -, shown⟩ | ⟨s, positive, -, shown⟩ := magnitude_cases f x
  · obtain ⟨c, cs, word, other, -⟩ := distinct.infinity
    exact ⟨c, cs, shown.trans word, other, .inr shown⟩
  · exact ⟨'0', _, shown, by decide, .inl ⟨0, by decide, rfl⟩⟩
  · obtain ⟨c, cs, start, digit⟩ := Scaled.text_head positive
    exact ⟨c, cs, shown.trans start, digit.ne minus, .inl digit⟩

/-- Numbers that differ at most in their signs are the only ones with the same text after the sign. -/
theorem eq_of_magnitude_eq (distinct : f.Distinct) {x y : Float}
    (same : f.magnitude x = f.magnitude y) :
    (Binary.ofFloat x).mantissa = (Binary.ofFloat y).mantissa ∧
      (Binary.ofFloat x).exponent = (Binary.ofFloat y).exponent := by
  obtain ⟨first, rest, word, -, letter⟩ := distinct.infinity
  have zero_ne : f.infinity.toList ≠ ['0', '.', '0'] := by
    rw [word]
    rintro h
    exact letter ⟨0, by decide, (List.cons.inj h).1⟩
  have text_ne {s : Scaled} (positive : 0 < s.digits) : f.infinity.toList ≠ s.text := by
    obtain ⟨c, cs, start, digit⟩ := Scaled.text_head positive
    rw [word, start]
    rintro h
    exact letter ((List.cons.inj h).1 ▸ digit)
  obtain ⟨mx, ex, tx⟩ | ⟨mx, ex, tx⟩ | ⟨s, ps, rs, tx⟩ := magnitude_cases f x <;>
    obtain ⟨my, ey, ty⟩ | ⟨my, ey, ty⟩ | ⟨t, pt, rt, ty⟩ := magnitude_cases f y <;>
    rw [tx, ty] at same
  · exact ⟨mx.trans my.symm, ex.trans ey.symm⟩
  · exact absurd same zero_ne
  · exact absurd same (text_ne pt)
  · exact absurd same.symm zero_ne
  · exact ⟨mx.trans my.symm, ex.trans ey.symm⟩
  · exact absurd same.symm (Scaled.text_ne_zero pt)
  · exact absurd same.symm (text_ne ps)
  · exact absurd same (Scaled.text_ne_zero ps)
  · have both := Scaled.readsBack_congr (Scaled.numerator_eq_of_text_eq ps pt same) (Binary.ofFloat y)
    exact Scaled.eq_of_readsBack (Binary.normal_ofFloat x) (Binary.normal_ofFloat y) rs (both.trans rt)

theorem text_eq_notANumber_iff (distinct : f.Distinct) {x : Float} :
    f.text x = f.notANumber ↔ x.isNaN = true := by
  rw [text]
  split
  · next nan => exact iff_of_true rfl nan
  · next number =>
    refine iff_of_false (fun same => ?_) number
    obtain ⟨c, cs, head, other, start⟩ := magnitude_head distinct x
    obtain ⟨d, ds, word, other', letter⟩ := distinct.notANumber
    rw [← String.toList_inj, String.toList_ofList, head, word] at same
    split at same
    · exact other' (List.cons.inj same).1.symm
    · obtain digit | infinite := start
      · exact letter ((List.cons.inj same).1 ▸ digit)
      · rw [List.nil_append, ← head, infinite, ← word, String.toList_inj] at same
        exact distinct.different same

/-- The text of a number is a word, or a numeral that is not one of an integer. -/
theorem text_form (f : FloatFormat) (x : Float) :
    (f.text x).toList = f.notANumber.toList ∨
    ∃ sign magnitude, (f.text x).toList = sign ++ magnitude ∧ (sign = [] ∨ sign = ['-']) ∧
      (magnitude = f.infinity.toList ∨
        (∃ c cs, magnitude = c :: cs ∧ IsAsciiDigit c) ∧ (∀ c ∈ magnitude, IsNumeralChar c) ∧
          ('.' ∈ magnitude ∨ 'e' ∈ magnitude)) := by
  rw [text]
  split
  · exact .inl rfl
  · refine .inr ⟨_, _, String.toList_ofList, ?_, ?_⟩
    · split <;> simp
    · obtain ⟨-, -, shown⟩ | ⟨-, -, shown⟩ | ⟨s, positive, -, shown⟩ := magnitude_cases f x
      · exact .inl shown
      · rw [shown]
        refine .inr ⟨⟨'0', _, rfl, 0, by decide, rfl⟩, ?_, .inl (by decide)⟩
        intro c hc
        have zero : IsAsciiDigit '0' := ⟨0, by decide, rfl⟩
        simp only [List.mem_cons, List.not_mem_nil, or_false] at hc
        obtain rfl | rfl | rfl := hc
        · exact .inl zero
        · exact .inr (by simp)
        · exact .inl zero
      · rw [shown]
        exact .inr ⟨Scaled.text_head positive, Scaled.text_chars positive, Scaled.text_mark positive⟩

/-- A sign is told from what stands after it. -/
private theorem signed_inj {negative negative' : Bool} {c d : Char} {cs ds : List Char} (hc : c ≠ '-')
    (hd : d ≠ '-') (same : (if negative then ['-'] else []) ++ c :: cs =
      (if negative' then ['-'] else []) ++ d :: ds) : negative = negative' ∧ c :: cs = d :: ds := by
  cases negative <;> cases negative'
  · exact ⟨rfl, same⟩
  · exact absurd (List.cons.inj same).1 hc
  · exact absurd (List.cons.inj same).1.symm hd
  · exact ⟨rfl, (List.cons.inj same).2⟩

/-- Different floating-point numbers have different texts. -/
theorem text_injective (distinct : f.Distinct) {x y : Float} (same : f.text x = f.text y) : x = y := by
  by_cases nan : x.isNaN = true
  · have first := nan
    have second : y.isNaN = true := by
      rwa [← text_eq_notANumber_iff distinct, ← same, text_eq_notANumber_iff distinct]
    rw [Float.isNaN_eq_decide_eq_nan, decide_eq_true_iff] at first second
    exact first.trans second.symm
  · have number : ¬ y.isNaN = true := by
      rwa [← text_eq_notANumber_iff distinct, ← same, text_eq_notANumber_iff distinct]
    obtain ⟨c, cs, headX, otherX, -⟩ := magnitude_head distinct x
    obtain ⟨d, ds, headY, otherY, -⟩ := magnitude_head distinct y
    rw [text, if_neg nan, text, if_neg number, String.ofList_inj] at same
    rw [headX, headY] at same
    obtain ⟨sign, magnitude⟩ := signed_inj otherX otherY same
    rw [← headX, ← headY] at magnitude
    obtain ⟨mantissa, exponent⟩ := eq_of_magnitude_eq distinct magnitude
    exact Binary.ofFloat_injective (Binary.ext sign mantissa exponent)

end FloatFormat
end CodeAgent.Decimal
