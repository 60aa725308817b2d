import Mathlib
import CodeAgent.Decimal.Shortest

/-! Every positive number has a shortest decimal, and the decimal reads back as no other number. -/
namespace CodeAgent.Decimal

namespace Binary

/-- The mantissa is one that a floating-point number has: all 53 bits are used beyond the least exponent. -/
structure Normal (b : Binary) : Prop where
  small : b.mantissa < 2 ^ 53
  full : 0 < b.exponent → 2 ^ 52 ≤ b.mantissa

theorem normal_ofFloat (x : Float) : (ofFloat x).Normal := by
  have fraction : x.toBits.toNat % 2 ^ 52 < 2 ^ 52 := Nat.mod_lt _ (by decide)
  constructor
  · simp only [ofFloat, Nat.pow_eq]
    split <;> omega
  · intro positive
    simp only [ofFloat, Nat.pow_eq] at positive ⊢
    split <;> omega

/-- Sign, mantissa and exponent make the floating-point number. -/
theorem ofFloat_injective {x y : Float} (same : ofFloat x = ofFloat y) : x = y := by
  obtain ⟨sign, mantissa, exponent⟩ := Binary.mk.inj same
  have bound (x : Float) : x.toBits.toNat < 2 ^ 64 := x.toBits.toNat_lt
  have hx := bound x
  have hy := bound y
  rw [← Float.toBits_inj, ← UInt64.toNat_inj]
  simp only [Nat.shiftRight_eq_div_pow, Nat.pow_eq] at sign mantissa exponent
  generalize x.toBits.toNat = m at *
  generalize y.toBits.toNat = n at *
  have top : m / 2 ^ 63 = n / 2 ^ 63 := by
    rw [Bool.eq_iff_iff, beq_iff_eq, beq_iff_eq] at sign
    omega
  split at mantissa <;> split at mantissa <;> omega

open Float.Model Float.Model.UnpackedFloat in
/-- Both infinities have the greatest exponent and no fraction. -/
theorem ofFloat_of_isInf {x : Float} (infinite : x.isInf = true) :
    (ofFloat x).mantissa = 2 ^ 52 ∧ (ofFloat x).exponent = 2046 := by
  obtain ⟨exponent, fraction⟩ : @unpackExponent .binary64 x.toBits.toBitVec = -1#11 ∧
      @unpackMantissa .binary64 x.toBits.toBitVec = 0#52 := by
    rw [Float.isInf, Float.Model.isInf, Float.Model.unpack, UnpackedFloat.unpack] at infinite
    split at infinite
    · split at infinite
      · exact ⟨‹_›, ‹_›⟩
      · contradiction
    · split at infinite
      · split at infinite <;> contradiction
      · contradiction
  replace exponent : (x.toBits.toNat >>> 52) % 2048 = 2047 := congrArg BitVec.toNat exponent
  replace fraction : x.toBits.toNat % Nat.pow 2 52 = 0 := congrArg BitVec.toNat fraction
  simp only [ofFloat, exponent, fraction]
  decide

/-- A greater exponent makes a greater number. -/
theorem Normal.numerator_lt {a b : Binary} (ha : a.Normal) (hb : b.Normal)
    (less : a.exponent < b.exponent) : a.numerator < b.numerator := by
  have full := hb.full (Nat.zero_lt_of_lt less)
  calc a.mantissa * 2 ^ a.exponent
      < 2 ^ 53 * 2 ^ a.exponent := Nat.mul_lt_mul_of_pos_right ha.small (Nat.two_pow_pos _)
    _ = 2 ^ 52 * 2 ^ (a.exponent + 1) := by rw [pow_succ, pow_succ]; ring
    _ ≤ b.mantissa * 2 ^ b.exponent := Nat.mul_le_mul full (Nat.pow_le_pow_right (by decide) less)

/-- Numbers of one exact value are the same up to their sign. -/
theorem Normal.eq_of_numerator_eq {a b : Binary} (ha : a.Normal) (hb : b.Normal)
    (same : a.numerator = b.numerator) : a.mantissa = b.mantissa ∧ a.exponent = b.exponent := by
  obtain less | exponent | less := lt_trichotomy a.exponent b.exponent
  · exact absurd same (ha.numerator_lt hb less).ne
  · rw [numerator, numerator, exponent] at same
    exact ⟨Nat.eq_of_mul_eq_mul_right (Nat.two_pow_pos _) same, exponent⟩
  · exact absurd same (hb.numerator_lt ha less).ne'

/-- The upper midpoint of a number does not lie above the lower midpoint of a greater one, and the two
meet only where one of the mantissas is odd. -/
theorem Normal.midpoints {a b : Binary} (ha : a.Normal) (hb : b.Normal)
    (less : a.numerator < b.numerator) :
    4 * a.numerator + 2 * a.halfGapAbove + b.quarterGapBelow ≤ 4 * b.numerator ∧
      (a.mantissa % 2 = 0 → b.mantissa % 2 = 0 →
        4 * a.numerator + 2 * a.halfGapAbove + b.quarterGapBelow < 4 * b.numerator) := by
  have small := ha.small
  have positive : 0 < 2 ^ a.exponent := Nat.two_pow_pos _
  have least {k : Nat} (h : k ≤ b.mantissa) : k * 2 ^ b.exponent ≤ b.mantissa * 2 ^ b.exponent :=
    Nat.mul_le_mul_right _ h
  have most {k : Nat} (h : a.mantissa ≤ k) : a.mantissa * 2 ^ a.exponent ≤ k * 2 ^ a.exponent :=
    Nat.mul_le_mul_right _ h
  obtain apart | exponent := (not_lt.mp fun h => (hb.numerator_lt ha h).asymm less).lt_or_eq
  · have full := hb.full (Nat.zero_lt_of_lt apart)
    have double : 2 ^ a.exponent * 2 ≤ 2 ^ b.exponent := by
      rw [← pow_succ]
      exact Nat.pow_le_pow_right (by decide) apart
    -- Of all numbers below a power of two, the one just below it has an odd mantissa.
    have upper := most (k := 2 ^ 53 - 1) (by omega)
    have upper_even (even : a.mantissa % 2 = 0) := most (k := 2 ^ 53 - 2) (by omega)
    simp only [numerator, halfGapAbove, quarterGapBelow, Nat.pow_eq, pow_succ 2 b.exponent]
    by_cases lowest : b.mantissa = 2 ^ 52
    · rw [if_pos ⟨lowest, by omega⟩, lowest]
      exact ⟨by omega, fun even _ => by have := upper_even even; omega⟩
    · have lower := least (k := 2 ^ 52 + 1) (by omega)
      rw [if_neg fun h => lowest h.1]
      exact ⟨by omega, fun even _ => by have := upper_even even; omega⟩
  · have mantissa : a.mantissa < b.mantissa := by
      rw [numerator, numerator, exponent] at less
      exact Nat.lt_of_mul_lt_mul_right less
    have above : b.quarterGapBelow ≤ 2 * 2 ^ b.exponent := by
      rw [quarterGapBelow]
      split <;> simp only [Nat.pow_eq, pow_succ] <;> omega
    have lower := least (k := a.mantissa + 1) (by omega)
    have lower_even (first : a.mantissa % 2 = 0) (second : b.mantissa % 2 = 0) :=
      least (k := a.mantissa + 2) (by omega)
    simp only [numerator, halfGapAbove, Nat.pow_eq, exponent, Nat.add_mul] at *
    exact ⟨by omega, fun first second => by have := lower_even first second; omega⟩

end Binary

namespace Scaled

/-- A decimal that reads back as a number does not read back as a greater one. -/
theorem not_readsBack_of_numerator_lt {s : Scaled} {a b : Binary} (ha : a.Normal) (hb : b.Normal)
    (less : a.numerator < b.numerator) (first : s.readsBack a = true) : ¬ s.readsBack b = true := by
  intro second
  obtain ⟨apart, apart_even⟩ := ha.midpoints hb less
  have positive : 0 < Nat.pow 10 400 := by decide +kernel
  rw [readsBack, Binary.scaledNumerator] at first second
  generalize Nat.pow 10 400 = unit at first second positive
  have scaled := Nat.mul_le_mul_right unit apart
  have scaled_even (ea : a.mantissa % 2 = 0) (eb : b.mantissa % 2 = 0) :=
    Nat.mul_lt_mul_of_pos_right (apart_even ea eb) positive
  simp only [Nat.add_mul] at scaled scaled_even
  split at first <;> split at second <;>
    rw [Bool.and_eq_true, decide_eq_true_iff, decide_eq_true_iff] at first second
  · have := scaled_even ‹_› ‹_›
    omega
  all_goals omega

/-- A decimal reads back as one number, up to its sign. -/
theorem eq_of_readsBack {s : Scaled} {a b : Binary} (ha : a.Normal) (hb : b.Normal)
    (first : s.readsBack a = true) (second : s.readsBack b = true) :
    a.mantissa = b.mantissa ∧ a.exponent = b.exponent := by
  obtain less | same | less := lt_trichotomy a.numerator b.numerator
  · exact absurd second (not_readsBack_of_numerator_lt ha hb less first)
  · exact ha.eq_of_numerator_eq hb same
  · exact absurd first (not_readsBack_of_numerator_lt hb ha less second)

end Scaled

theorem gridHit?_readsBack {b : Binary} {e : Nat} {s : Scaled} (hit : gridHit? b e = some s) :
    0 < s.digits ∧ s.readsBack b = true := by
  simpa using List.find?_some hit

theorem firstHit?_readsBack {b : Binary} {e : Nat} {s : Scaled} (hit : firstHit? b e = some s) :
    0 < s.digits ∧ s.readsBack b = true := by
  induction e with
  | zero => exact gridHit?_readsBack hit
  | succ e ih =>
    rw [firstHit?] at hit
    cases grid : gridHit? b (e + 1) with
    | some t =>
      rw [grid] at hit
      exact gridHit?_readsBack (grid.trans hit)
    | none =>
      rw [grid] at hit
      exact ih hit

/-- A decimal above a number, but not by more than half the distance to the next number, reads back. -/
theorem Scaled.readsBack_of_close {s : Scaled} {b : Binary} (above : b.scaledNumerator < s.numerator)
    (close : s.numerator < b.scaledNumerator + 2 * b.halfGapAbove * Nat.pow 10 400) :
    s.readsBack b = true := by
  rw [readsBack]
  split
  all_goals
    rw [Bool.and_eq_true, decide_eq_true_iff, decide_eq_true_iff]
    exact ⟨by omega, by omega⟩

/-- The units of the finest grid are smaller than the distance to any next number. -/
theorem unit_lt_halfGapAbove (b : Binary) :
    4 * binaryDenominator * Nat.pow 10 0 < 2 * b.halfGapAbove * Nat.pow 10 400 := by
  have fine : 4 * binaryDenominator * Nat.pow 10 0 < 2 * Nat.pow 10 400 := by decide +kernel
  have positive : 0 < b.halfGapAbove := Nat.two_pow_pos _
  generalize Nat.pow 10 400 = unit at fine ⊢
  calc 4 * binaryDenominator * Nat.pow 10 0
      < 2 * unit := fine
    _ ≤ 2 * b.halfGapAbove * unit := Nat.mul_le_mul_right _ (by omega)

/-- On the finest grid the neighbour above a number reads back. -/
theorem gridHit?_zero_isSome (b : Binary) : (gridHit? b 0).isSome := by
  have fine := unit_lt_halfGapAbove b
  rw [gridHit?, List.find?_isSome]
  have value (d : Nat) : (⟨d, 0⟩ : Scaled).numerator = d * (4 * binaryDenominator * Nat.pow 10 0) := by
    rw [Scaled.numerator]
    ring
  have positive : 0 < 4 * binaryDenominator * Nat.pow 10 0 := by decide +kernel
  generalize 4 * binaryDenominator * Nat.pow 10 0 = unit at fine value positive ⊢
  refine ⟨⟨b.scaledNumerator / unit + 1, 0⟩, ?_, ?_⟩
  · dsimp only
    split <;> simp
  · have floor := Nat.div_add_mod b.scaledNumerator unit
    have less := Nat.mod_lt b.scaledNumerator positive
    have next : (⟨b.scaledNumerator / unit + 1, 0⟩ : Scaled).numerator =
        unit * (b.scaledNumerator / unit) + unit := by
      rw [value]
      ring
    rw [Bool.and_eq_true, decide_eq_true_iff]
    exact ⟨Nat.succ_pos _, Scaled.readsBack_of_close (by omega) (by omega)⟩

theorem firstHit?_isSome (b : Binary) (e : Nat) : (firstHit? b e).isSome := by
  induction e with
  | zero => exact gridHit?_zero_isSome b
  | succ e ih =>
    rw [firstHit?]
    cases gridHit? b (e + 1) with
    | some s => rfl
    | none => exact ih

theorem shortest_readsBack (b : Binary) : 0 < (shortest b).digits ∧ (shortest b).readsBack b = true := by
  obtain ⟨s, hit⟩ := Option.isSome_iff_exists.mp (firstHit?_isSome b 710)
  rw [shortest, hit]
  exact firstHit?_readsBack hit

end CodeAgent.Decimal
