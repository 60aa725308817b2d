import CodeAgent.Proofs.Decimal.Nearest
import CodeAgent.Proofs.Json.Canonical
import CodeAgent.Proofs.Json.Locality

/-! Numerals read back: the text of every floating-point number is read as that number. -/
namespace CodeAgent.Json
open CodeAgent.Decimal

theorem isDigit_of_ascii {c : Char} (digit : IsAsciiDigit c) : isDigit c = true := by
  obtain ⟨d, small, rfl⟩ := digit
  exact (by decide : ∀ d < 10, isDigit (digitChar d) = true) d small

section parts
variable {digits rest : List Char} (all : AllDigits digits)
include all

theorem spanDigits_append (ends : NoDigit rest) : spanDigits (digits ++ rest) = (digits, rest) := by
  have alone : spanDigits digits = (digits, []) := by
    have found : ∀ c ∈ digits, isDigit c = true := fun c hc => isDigit_of_ascii (all c hc)
    rw [spanDigits, List.span_eq_takeWhile_dropWhile]
    exact Prod.ext (List.takeWhile_eq_self_iff.mpr found) (List.dropWhile_eq_nil_iff.mpr found)
  exact (spanDigits_local alone).2.2 rest ends

variable (filled : digits ≠ [])
include filled

theorem wholePart?_append (lead : digits = ['0'] ∨ digits.head? ≠ some '0') (ends : NoDigit rest) :
    wholePart? (digits ++ rest) = some (digits, rest) := by
  obtain rfl | lead := lead
  · rfl
  · unfold wholePart?
    split
    · next more zero =>
      cases digits with
      | nil => contradiction
      | cons c cs => exact absurd (congrArg some (List.cons.inj zero).1) lead
    · rw [spanDigits_append all ends]
      simp [filled]

theorem fractionAt_append (ends : NoDigit rest) :
    fractionAt ('.' :: (digits ++ rest)) = (digits, rest, true) := by
  have part : fractionPart? ('.' :: (digits ++ rest)) = some (digits, rest) := by
    rw [fractionPart?, spanDigits_append all ends]
    simp [filled]
  rw [fractionAt, part]

theorem signedDigits?_append (negative : Bool) (ends : NoDigit rest) :
    signedDigits? negative (digits ++ rest) =
      some (if negative then -(digitsValue digits : Int) else digitsValue digits, rest) := by
  rw [signedDigits?, spanDigits_append all ends]
  simp [filled]

end parts

theorem exponentAt_exponentText (e : Int) {rest : List Char} (ends : NoDigit rest) :
    exponentAt ('e' :: (exponentText e ++ rest)) = (e, rest, true) := by
  obtain ⟨sign, digits, shown, mark, all, filled, value⟩ := exponentText_eq e
  have part : exponentPart? ('e' :: (exponentText e ++ rest)) = some (e, rest) := by
    rw [shown, value]
    obtain rfl | rfl := mark
    · exact signedDigits?_append all filled true ends
    · exact signedDigits?_append all filled false ends
  rw [exponentAt, part]

theorem noDigit_cons {c : Char} {cs : List Char} (other : isDigit c = false) : NoDigit (c :: cs) := by
  intro d hd
  cases hd
  exact other

section reads
variable (negative : Bool) {rest : List Char} (ends : Stops rest)
include ends

/-- A numeral with a point. -/
theorem readUnsigned_pointed {whole fraction : List Char} (whole_digits : AllDigits whole)
    (whole_filled : whole ≠ []) (lead : whole = ['0'] ∨ whole.head? ≠ some '0')
    (fraction_digits : AllDigits fraction) (fraction_filled : fraction ≠ []) :
    readUnsigned negative (whole ++ '.' :: (fraction ++ rest)) =
      .ok (.float (toFloat negative (digitsValue (whole ++ fraction)) (-fraction.length)), rest) := by
  have exponent : exponentAt rest = (0, rest, false) := by
    rw [exponentAt, exponentPart?_none fun c hc => (ends c hc).2.2]
  rw [readUnsigned, wholePart?_append whole_digits whole_filled lead (noDigit_cons (by decide))]
  dsimp only
  rw [fractionAt_append fraction_digits fraction_filled ends.noDigit]
  dsimp only
  rw [exponent]
  simp [numberOf, Except.map]

/-- A numeral with a power of ten. -/
theorem readUnsigned_scientific {digits : List Char} (point : Int) (all : AllDigits digits)
    (filled : digits ≠ []) (lead : digits.head? ≠ some '0') :
    readUnsigned negative (scientific digits point ++ rest) =
      .ok (.float (toFloat negative (digitsValue digits) (point - digits.length)), rest) := by
  have exponent := exponentAt_exponentText (point - 1) ends.noDigit
  have letter : isDigit 'e' = false := by decide
  rw [scientific, List.append_assoc, List.cons_append]
  obtain ⟨d, tail, rfl⟩ := List.exists_cons_of_ne_nil filled
  cases tail with
  | nil =>
    have whole : wholePart? ([d] ++ 'e' :: (exponentText (point - 1) ++ rest)) = _ :=
      wholePart?_append all (by simp) (.inr lead) (noDigit_cons letter)
    have fraction (cs : List Char) : fractionAt ('e' :: cs) = ([], 'e' :: cs, false) := by
      rw [fractionAt, fractionPart?_none (by simp)]
    rw [mantissaText, readUnsigned, whole]
    dsimp only
    rw [fraction]
    dsimp only
    rw [exponent]
    simp [numberOf, Except.map]
  | cons e ds =>
    have first : AllDigits [d] := fun c hc => all c (by simp_all)
    have others : AllDigits (e :: ds) := fun c hc => all c (List.mem_cons_of_mem d hc)
    have whole : wholePart? ([d] ++ '.' :: (e :: ds ++ 'e' :: (exponentText (point - 1) ++ rest))) = _ :=
      wholePart?_append first (by simp) (.inr lead) (noDigit_cons (by decide))
    have ended : NoDigit ('e' :: (exponentText (point - 1) ++ rest)) := noDigit_cons letter
    have fraction := fractionAt_append others (by simp) ended
    change readUnsigned negative ([d] ++ '.' :: (e :: ds ++ 'e' :: (exponentText (point - 1) ++ rest))) = _
    rw [readUnsigned, whole]
    dsimp only
    rw [fraction]
    dsimp only
    rw [exponent]
    have place : point - 1 - (e :: ds).length = point - (d :: e :: ds).length := by
      simp only [List.length_cons]
      omega
    simp only [numberOf, place, List.singleton_append, Bool.or_true, if_true]
    rfl

end reads

/-- The text of a decimal is read as a decimal of the same value. -/
theorem readUnsigned_scaledText (negative : Bool) {s : Scaled} (positive : 0 < s.digits) {rest : List Char}
    (ends : Stops rest) : ∃ t : Scaled, 0 < t.digits ∧ t.numerator = s.numerator ∧
      readUnsigned negative (s.text ++ rest) = .ok (.float (toFloat negative t.digits (t.exponent - 400)), rest) := by
  obtain ⟨digits, zeros, point, all, filled, lead, value, place, shown⟩ := Scaled.exists_digits positive
  have some : 0 < digitsValue digits := by
    refine Nat.pos_of_ne_zero fun none => ?_
    rw [none, Nat.zero_mul] at value
    omega
  obtain ⟨shift, scale⟩ : ∃ shift : Nat, (400 : Int) = shift := ⟨400, rfl⟩
  rw [shown]
  rw [scale] at place
  split
  · obtain ⟨whole, fraction, made, parts⟩ := pointed_eq all filled place
    have short := parts.fraction_short (by omega)
    have value' := parts.scaled_value short
    refine ⟨⟨digitsValue (whole ++ fraction), shift - fraction.length⟩, ?_, ?_, ?_⟩
    · refine Nat.pos_of_ne_zero fun none => ?_
      replace none : digitsValue (whole ++ fraction) = 0 := none
      rw [none, Nat.zero_mul, eq_comm, Nat.mul_eq_zero] at value'
      exact value'.elim some.ne' (Nat.pow_pos (by decide)).ne'
    · rw [Scaled.numerator, Scaled.numerator, Nat.mul_assoc, Nat.pow_eq, value', value, Nat.pow_eq, pow_add]
      ring
    · have lead_whole : whole = ['0'] ∨ whole.head? ≠ Option.some '0' :=
        parts.lead.imp_right fun same => by rwa [same]
      rw [made, List.append_assoc, List.cons_append, readUnsigned_pointed negative ends parts.whole_digits
        parts.whole_filled lead_whole parts.fraction_digits parts.fraction_filled]
      have same : ((shift - fraction.length : Nat) : Int) - 400 = -fraction.length := by omega
      rw [same]
  · refine ⟨⟨digitsValue digits, zeros + s.exponent⟩, some, ?_, ?_⟩
    · rw [Scaled.numerator, Scaled.numerator, value, Nat.pow_eq, Nat.pow_eq, pow_add]
      ring
    · rw [readUnsigned_scientific negative ends point all filled lead]
      have same : ((zeros + s.exponent : Nat) : Int) - 400 = point - digits.length := by omega
      rw [same]

/-- A sign before a digit is the sign of a number. -/
theorem readScalar_signed (negative : Bool) {c : Char} (digit : IsAsciiDigit c) (cs : List Char) :
    readScalar ((if negative then ['-'] else []) ++ c :: cs) = readUnsigned negative (c :: cs) := by
  have found := isDigit_of_ascii digit
  cases negative with
  | true => exact readScalar_number (.inr ⟨rfl, c, cs, found, rfl⟩)
  | false =>
    have unsigned : readNumber (c :: cs) = readUnsigned false (c :: cs) := by
      rw [readNumber]
      rintro _ same
      exact digit.ne (by decide) (List.cons.inj same).1
    exact (readScalar_number (.inl found)).trans unsigned

/-- The text of a floating-point number is read as that number. -/
theorem readScalar_floatText (x : Float) {rest : List Char} (ends : Stops rest) :
    readScalar ((floatFormat.text x).toList ++ rest) = .ok (.float x, rest) := by
  rw [FloatFormat.text]
  split
  · next missing =>
    have same : (0.0 / 0.0 : Float) = x := by
      have word : (0.0 / 0.0 : Float).isNaN = true := by decide +kernel
      rw [Float.isNaN_eq_decide_eq_nan, decide_eq_true_iff] at missing word
      exact word.trans missing.symm
    rw [← same]
    rfl
  · next number =>
    rw [String.toList_ofList, List.append_assoc, FloatFormat.magnitude]
    by_cases infinite : x.isInf = true
    · rw [if_pos infinite]
      obtain ⟨mantissa, exponent⟩ := Binary.ofFloat_of_isInf infinite
      have same {y : Float} {negative : Bool} (sign : (Binary.ofFloat x).negative = negative)
          (parts : Binary.ofFloat y = ⟨negative, 2 ^ 52, 2046⟩) : y = x :=
        Binary.ofFloat_injective (parts.trans (Binary.ext sign mantissa exponent).symm)
      cases sign : (Binary.ofFloat x).negative with
      | true =>
        rw [← same sign (by decide +kernel : Binary.ofFloat (-1.0 / 0.0) = _)]
        rfl
      | false =>
        rw [← same sign (by decide +kernel : Binary.ofFloat (1.0 / 0.0) = _)]
        rfl
    rw [if_neg infinite]
    by_cases zero : (Binary.ofFloat x).mantissa = 0
    · rw [if_pos zero]
      have digit : IsAsciiDigit '0' := ⟨0, by decide, rfl⟩
      have read := readUnsigned_pointed (Binary.ofFloat x).negative ends (.zeros 1) (by simp) (.inl rfl)
        (.zeros 1) (by simp)
      have value : digitsValue (List.replicate 1 '0' ++ List.replicate 1 '0') = 0 := digitsValue_zeros 2
      rw [value, toFloat_zero zero] at read
      exact (readScalar_signed _ digit _).trans read
    · rw [if_neg zero]
      have finite : x.isInf = false := by simpa using infinite
      have number : x.isNaN = false := by simpa using number
      obtain ⟨positive, reads⟩ := shortest_readsBack (Binary.ofFloat x)
      generalize shortest (Binary.ofFloat x) = s at positive reads
      obtain ⟨t, positive', same, read⟩ := readUnsigned_scaledText (Binary.ofFloat x).negative positive ends
      rw [← Scaled.readsBack_congr same] at reads
      rw [toFloat_of_readsBack (Binary.exponent_le_of_number finite number) zero positive' reads] at read
      obtain ⟨c, cs, shown, digit⟩ := Scaled.text_head positive
      rw [shown] at read
      rw [shown, List.cons_append, readScalar_signed _ digit]
      exact read

end CodeAgent.Json
