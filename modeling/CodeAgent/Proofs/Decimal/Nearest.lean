import CodeAgent.Proofs.Decimal.Shortest

/-! A floating-point number is made from its parts again. Rounding to the nearest floating-point number: a decimal
that reads back as a number is rounded to it. -/
namespace CodeAgent.Decimal

section Bits
open Float.Model Float.Model.UnpackedFloat

theorem sign_toBitVec_ofBitVec (c : BitVec 1) : (Sign.ofBitVec c).toBitVec = c := by
  obtain rfl | rfl := BitVec.eq_zero_or_eq_one c <;> rfl

/-- Sign, exponent and fraction make up all the bits. -/
theorem packComponents_unpacked (b : BitVec 64) :
    packComponents .binary64 (Sign.ofBitVec (@unpackSign .binary64 b)) (@unpackExponent .binary64 b)
      (@unpackMantissa .binary64 b) = b := by
  rw [packComponents, sign_toBitVec_ofBitVec]
  change b.extractLsb' 63 1 ++ b.extractLsb' 52 11 ++ b.extractLsb' 0 52 = b
  ext i hi
  simp only [BitVec.getElem_append, BitVec.getElem_extractLsb']
  split
  · rw [Nat.zero_add, BitVec.getLsbD_eq_getElem]
  · split
    · rw [Nat.add_sub_cancel' (by omega), BitVec.getLsbD_eq_getElem]
    · rw [Nat.sub_sub, Nat.add_sub_cancel' (by omega), BitVec.getLsbD_eq_getElem]

theorem pack_subnormal (sign : Sign) (fraction : BitVec 52) (positive : 0 < fraction.toNat) :
    UnpackedFloat.pack .binary64 (.finite sign fraction.toNat (-1074) positive) =
      packComponents .binary64 sign 0#11 fraction := by
  have short := (Nat.log2_lt positive.ne').mpr fraction.isLt
  have bits : fraction.toNat.log2 + 1 ≠ Format.binary64.mantissaBits :=
    Nat.ne_of_lt (Nat.succ_lt_succ short)
  rw [UnpackedFloat.pack]
  dsimp only
  rw [if_neg (by decide), if_neg bits, BitVec.ofNat_toNat, BitVec.setWidth_eq]

theorem pack_normal (sign : Sign) {exponent : BitVec 11} (finite : exponent ≠ -1#11) (fraction : BitVec 52)
    (positive : 0 < (1#1 ++ fraction).toNat) :
    UnpackedFloat.pack .binary64 (.finite sign (1#1 ++ fraction).toNat (exponent.toNat - 1075) positive) =
      packComponents .binary64 sign exponent fraction := by
  have mantissa : (1#1 ++ fraction).toNat = 2 ^ 52 + fraction.toNat := by
    rw [BitVec.toNat_append, ← Nat.shiftLeft_add_eq_or_of_lt fraction.isLt]
    rfl
  have small := fraction.isLt
  have bits : (1#1 ++ fraction).toNat.log2 + 1 = Format.binary64.mantissaBits := by
    have top : (2 ^ 52 + fraction.toNat).log2 = 52 :=
      (Nat.log2_eq_iff (by omega)).mpr ⟨by omega, by omega⟩
    rw [mantissa, top]
    rfl
  have biased : ((exponent.toNat : Int) - 1075 + Format.binary64.exponentBias +
      (52 : Nat)).toNat = exponent.toNat := by
    change ((exponent.toNat : Int) - 1075 + (1023 : Nat) + (52 : Nat)).toNat = _
    omega
  have bounded : ¬ 2 ^ 11 ≤ exponent.toNat + 1 := by
    have other : exponent.toNat ≠ 2047 := fun same => finite (BitVec.eq_of_toNat_eq same)
    have := exponent.isLt
    omega
  rw [UnpackedFloat.pack]
  dsimp only
  rw [biased, if_neg bounded, if_pos bits, mantissa, BitVec.ofNat_toNat, BitVec.setWidth_eq]
  congr 1
  apply BitVec.eq_of_toNat_eq
  rw [BitVec.toNat_ofNat]
  omega

/-- The bits of a floating-point number are unpacked and packed again. -/
theorem pack_unpack {b : BitVec 64} (valid : Format.binary64.Valid b) :
    UnpackedFloat.pack .binary64 (UnpackedFloat.unpack .binary64 b) = b := by
  have whole := packComponents_unpacked b
  rw [UnpackedFloat.unpack]
  split
  · next infinite =>
    split
    · next fraction =>
      rw [infinite, fraction] at whole
      exact whole
    · next fraction => exact (valid.eq_packedNaN infinite fraction).symm
  split
  · next least =>
    rw [least] at whole
    split
    · next fraction =>
      rw [fraction] at whole
      exact whole
    · next fraction =>
      rw [least]
      exact (pack_subnormal _ _ _).trans whole
  · next finite least => exact (pack_normal _ finite _ _).trans whole

theorem ofBits_toBits (x : Float) : Float.ofBits x.toBits = x := by
  apply Float.toBits_inj.mp
  rw [← UInt64.toBitVec_inj]
  exact pack_unpack x.toModel.valid

end Bits

namespace Binary

/-- The parts of a floating-point number make up its bits. -/
theorem bits_ofFloat (x : Float) : (ofFloat x).bits = x.toBits.toNat := by
  have bound : x.toBits.toNat < 2 ^ 64 := x.toBits.toNat_lt
  simp only [bits, ofFloat, Nat.shiftRight_eq_div_pow, Nat.pow_eq, beq_iff_eq]
  generalize x.toBits.toNat = n at bound
  split <;> split <;> omega

theorem toFloat_eq {b : Binary} {x : Float} (finite : b.exponent ≤ 2045) (same : b.bits = (ofFloat x).bits) :
    b.toFloat = x := by
  rw [toFloat, if_neg (Nat.not_lt.mpr finite), same, bits_ofFloat, UInt64.ofNat_toNat, ofBits_toBits]

open Float.Model Float.Model.UnpackedFloat in
/-- The greatest exponent belongs to infinities and to what is no number. -/
theorem exponent_le_of_number {x : Float} (finite : x.isInf = false) (number : x.isNaN = false) :
    (ofFloat x).exponent ≤ 2045 := by
  by_contra greatest
  have all : (x.toBits.toNat >>> 52) % 2048 = 2047 := by
    simp only [ofFloat] at greatest
    omega
  have ones : @unpackExponent .binary64 x.toModel.toBits.toBitVec = -1#_ := BitVec.eq_of_toNat_eq all
  rw [Float.isInf, Float.Model.isInf, Float.Model.unpack, UnpackedFloat.unpack, if_pos ones] at finite
  rw [Float.isNaN, Float.Model.isNaN, Float.Model.unpack, UnpackedFloat.unpack, if_pos ones] at number
  split at finite
  · contradiction
  · next fraction =>
    rw [if_neg fraction] at number
    contradiction

end Binary

end CodeAgent.Decimal

namespace CodeAgent.Decimal

/-- What is rounded lies within half a unit of the result, and a tie goes to an even result. -/
theorem roundHalfEven_close (num : Nat) {den : Nat} (positive : 0 < den) :
    2 * (roundHalfEven num den * den) ≤ 2 * num + den ∧ 2 * num ≤ 2 * (roundHalfEven num den * den) + den ∧
      (roundHalfEven num den % 2 = 1 → 2 * (roundHalfEven num den * den) < 2 * num + den ∧
        2 * num < 2 * (roundHalfEven num den * den) + den) := by
  have split : num = num / den * den + num % den := by
    rw [Nat.mul_comm]
    exact (Nat.div_add_mod num den).symm
  have remainder := Nat.mod_lt num positive
  have next : (num / den + 1) * den = num / den * den + den := Nat.succ_mul _ _
  rw [roundHalfEven]
  split_ifs <;> omega

namespace Scaled

theorem numerator_pos {s : Scaled} (digits : 0 < s.digits) : 0 < s.numerator := by
  have denominator : 0 < 4 * binaryDenominator := by decide +kernel
  exact Nat.mul_pos (Nat.mul_pos denominator digits) (Nat.pow_pos (by decide))

/-- A decimal reads back as a number if a fraction of its value lies between the midpoints. -/
theorem readsBack_of_between {s : Scaled} {b : Binary} {num den k : Nat} (digits : 0 < s.digits)
    (positive : 0 < den) (scale : k = 400) (value : 4 * num * Nat.pow 10 k = s.numerator * den)
    (lower : 4 * b.numerator * den ≤ 4 * num + b.quarterGapBelow * den)
    (upper : 4 * num ≤ (4 * b.numerator + 2 * b.halfGapAbove) * den)
    (odd : b.mantissa % 2 = 1 → 4 * b.numerator * den < 4 * num + b.quarterGapBelow * den ∧
      4 * num < (4 * b.numerator + 2 * b.halfGapAbove) * den) : s.readsBack b = true := by
  have scaled : 0 < Nat.pow 10 k := Nat.pow_pos (by decide)
  have filled := numerator_pos digits
  rw [readsBack, Binary.scaledNumerator, ← scale]
  generalize Nat.pow 10 k = unit at *
  generalize s.numerator = n at *
  have below : (n + b.quarterGapBelow * unit) * den = (4 * num + b.quarterGapBelow * den) * unit := by
    rw [Nat.add_mul, Nat.add_mul, value]
    ring
  have above : (4 * b.numerator * unit + 2 * b.halfGapAbove * unit) * den =
      (4 * b.numerator + 2 * b.halfGapAbove) * den * unit := by
    ring
  split
  · have first : 4 * b.numerator * unit ≤ n + b.quarterGapBelow * unit := by
      apply Nat.le_of_mul_le_mul_right _ positive
      rw [below, Nat.mul_right_comm]
      exact Nat.mul_le_mul_right unit lower
    have second : n ≤ 4 * b.numerator * unit + 2 * b.halfGapAbove * unit := by
      apply Nat.le_of_mul_le_mul_right _ positive
      rw [above, ← value]
      exact Nat.mul_le_mul_right unit upper
    rw [Bool.and_eq_true, decide_eq_true_iff, decide_eq_true_iff]
    exact ⟨by omega, second⟩
  · next other =>
    obtain ⟨lower, upper⟩ := odd (by omega)
    have first : 4 * b.numerator * unit < n + b.quarterGapBelow * unit := by
      apply Nat.lt_of_mul_lt_mul_right (a := den)
      rw [below, Nat.mul_right_comm]
      exact Nat.mul_lt_mul_of_pos_right lower scaled
    have second : n < 4 * b.numerator * unit + 2 * b.halfGapAbove * unit := by
      apply Nat.lt_of_mul_lt_mul_right (a := den)
      rw [above, ← value]
      exact Nat.mul_lt_mul_of_pos_right upper scaled
    rw [Bool.and_eq_true, decide_eq_true_iff, decide_eq_true_iff]
    exact ⟨by omega, second⟩

end Scaled

theorem Binary.normal_carried (negative : Bool) (e : Nat) : (⟨negative, 2 ^ 52, e + 1⟩ : Binary).Normal := by
  constructor
  · change 2 ^ 52 < 2 ^ 53
    omega
  · intro _
    change 2 ^ 52 ≤ 2 ^ 52
    omega

theorem Binary.bits_carried (negative : Bool) (e : Nat) :
    (⟨negative, 2 ^ 52, e + 1⟩ : Binary).bits = (⟨negative, 2 ^ 53, e⟩ : Binary).bits := by
  simp only [Binary.bits, Nat.pow_eq]
  omega

section rounded
variable {num den e : Nat}

theorem unit_pow (k : Nat) : 2 ^ (k + e) * den = 2 ^ k * (den * Nat.pow 2 e) := by
  rw [pow_add, Nat.pow_eq]
  ring

variable (positive : 0 < den)
include positive

/-- The quotient has 53 bits more than the exponent, or fewer where the exponent is least. -/
theorem quotient_bounds (exponent : Nat.log2 (num / den) - 52 = e) :
    num < 2 ^ 53 * (den * Nat.pow 2 e) ∧ (0 < e → 2 ^ 52 * (den * Nat.pow 2 e) ≤ num) := by
  constructor
  · rw [← unit_pow, ← Nat.div_lt_iff_lt_mul positive]
    calc num / den
        < 2 ^ ((num / den).log2 + 1) := Nat.lt_log2_self
      _ ≤ 2 ^ (53 + e) := Nat.pow_le_pow_right (by decide) (by omega)
  · intro more
    have some : num / den ≠ 0 := by
      intro none
      rw [none, Nat.log2_zero] at exponent
      omega
    rw [← unit_pow, ← Nat.le_div_iff_mul_le positive]
    calc 2 ^ (52 + e)
        ≤ 2 ^ (num / den).log2 := Nat.pow_le_pow_right (by decide) (by omega)
      _ ≤ num / den := Nat.log2_self_le some

variable {s : Scaled} {k : Nat} (negative : Bool) (digits : 0 < s.digits) (scale : k = 400)
  (value : 4 * num * Nat.pow 10 k = s.numerator * den)
include digits scale value

/-- A mantissa rounded up to `2 ^ 53` is that of the next power of two. -/
theorem readsBack_carried (bound : num < 2 ^ 53 * (den * Nat.pow 2 e))
    (least : 2 * (2 ^ 53 * (den * Nat.pow 2 e)) ≤ 2 * num + den * Nat.pow 2 e) :
    s.readsBack ⟨negative, 2 ^ 52, e + 1⟩ = true := by
  have twice : Nat.pow 2 (e + 1) * den = 2 * (den * Nat.pow 2 e) := by
    rw [Nat.pow_eq, Nat.add_comm, unit_pow, pow_one]
  have top : 4 * (⟨negative, 2 ^ 52, e + 1⟩ : Binary).numerator * den =
      4 * (2 ^ 53 * (den * Nat.pow 2 e)) := by
    rw [Binary.numerator, Nat.mul_assoc, Nat.mul_assoc, twice]
    ring
  refine Scaled.readsBack_of_between digits positive scale value ?_ ?_ fun odd => ?_
  · rw [top, Binary.quarterGapBelow, if_pos ⟨Nat.pow_eq.symm, Nat.succ_pos e⟩, twice]
    omega
  · rw [Nat.add_mul, top, Binary.halfGapAbove]
    omega
  · change 2 ^ 52 % 2 = 1 at odd
    omega

theorem readsBack_rounded (full : 0 < e → 2 ^ 52 * (den * Nat.pow 2 e) ≤ num) :
    s.readsBack ⟨negative, roundHalfEven num (den * Nat.pow 2 e), e⟩ = true := by
  have unit_pos : 0 < den * Nat.pow 2 e := Nat.mul_pos positive (Nat.two_pow_pos e)
  obtain ⟨least, most, odd⟩ := roundHalfEven_close num unit_pos
  generalize roundHalfEven num (den * Nat.pow 2 e) = m at *
  have top : 4 * (⟨negative, m, e⟩ : Binary).numerator * den = 4 * (m * (den * Nat.pow 2 e)) := by
    rw [Binary.numerator]
    ring
  have above : (4 * (⟨negative, m, e⟩ : Binary).numerator + 2 * Nat.pow 2 e) * den =
      4 * (m * (den * Nat.pow 2 e)) + 2 * (den * Nat.pow 2 e) := by
    rw [Nat.add_mul, top]
    ring
  have twice : Nat.pow 2 (e + 1) * den = 2 * (den * Nat.pow 2 e) := by
    rw [Nat.pow_eq, Nat.add_comm, unit_pow, pow_one]
  -- Below a power of two the gap is half as wide, but a rounded fraction does not lie there.
  have below : 4 * (m * (den * Nat.pow 2 e)) ≤ 4 * num + (⟨negative, m, e⟩ : Binary).quarterGapBelow * den ∧
      (m % 2 = 1 →
        4 * (m * (den * Nat.pow 2 e)) < 4 * num + (⟨negative, m, e⟩ : Binary).quarterGapBelow * den) := by
    rw [Binary.quarterGapBelow]
    split
    · next lowest =>
      obtain ⟨even, more⟩ := lowest
      have even : m = 2 ^ 52 := even
      have enough := full more
      rw [← even] at enough
      exact ⟨by omega, fun tie => by omega⟩
    · rw [twice]
      exact ⟨by omega, fun tie => by have := odd tie; omega⟩
  refine Scaled.readsBack_of_between digits positive scale value ?_ ?_ fun tie => ?_
  · rw [top]
    exact below.1
  · rw [Binary.halfGapAbove, above]
    omega
  · rw [Binary.halfGapAbove, top, above]
    have := odd tie
    exact ⟨below.2 tie, by omega⟩

/-- A fraction that is rounded reads back as the result, up to the carry of its mantissa. -/
theorem nearest_readsBack : ∃ b : Binary, b.Normal ∧ b.bits = (nearest negative num den).bits ∧
    (nearest negative num den).exponent ≤ b.exponent ∧ b.negative = negative ∧ s.readsBack b = true := by
  obtain ⟨e, exponent⟩ : ∃ e, Nat.log2 (num / den) - 52 = e := ⟨_, rfl⟩
  have unit_pos : 0 < den * Nat.pow 2 e := Nat.mul_pos positive (Nat.two_pow_pos e)
  obtain ⟨bound, full⟩ := quotient_bounds positive exponent
  obtain ⟨least, most, -⟩ := roundHalfEven_close num unit_pos
  have whole := readsBack_rounded positive negative digits scale value full
  rw [nearest, exponent]
  dsimp only
  generalize roundHalfEven num (den * Nat.pow 2 e) = m at *
  have small : m ≤ 2 ^ 53 := by
    by_contra more
    have := Nat.mul_le_mul_right (den * Nat.pow 2 e) (Nat.not_le.mp more)
    omega
  have large : 0 < e → 2 ^ 52 ≤ m := by
    intro more
    by_contra less
    have := Nat.mul_le_mul_right (den * Nat.pow 2 e) (Nat.le_sub_one_of_lt (Nat.not_le.mp less))
    have := full more
    omega
  obtain rfl | less := small.eq_or_lt
  · exact ⟨_, Binary.normal_carried negative e, Binary.bits_carried negative e, Nat.le_succ e, rfl,
      readsBack_carried positive negative digits scale value bound least⟩
  · exact ⟨_, ⟨less, large⟩, rfl, le_rfl, rfl, whole⟩

end rounded

/-- A decimal that reads back as a number lies between the midpoints to its neighbours. -/
theorem Scaled.between_of_readsBack {s : Scaled} {b : Binary} (reads : s.readsBack b = true) :
    b.scaledNumerator ≤ s.numerator + b.quarterGapBelow * Nat.pow 10 400 ∧
      s.numerator ≤ b.scaledNumerator + 2 * b.halfGapAbove * Nat.pow 10 400 := by
  rw [readsBack] at reads
  split at reads
  all_goals
    rw [Bool.and_eq_true, decide_eq_true_iff, decide_eq_true_iff] at reads
    omega

/-- A decimal that reads back as a finite number has no exponent of 400 or more. -/
theorem Scaled.exponent_lt_of_readsBack {s : Scaled} {b : Binary} (normal : b.Normal)
    (finite : b.exponent ≤ 2045) (digits : 0 < s.digits) (reads : s.readsBack b = true) : s.exponent < 800 := by
  by_contra large
  obtain ⟨k, j, high, low, apart⟩ : ∃ k j, k ≤ s.exponent ∧ b.exponent ≤ j ∧
      (4 * 2 ^ 53 + 2) * Nat.pow 2 j * Nat.pow 10 400 < 4 * binaryDenominator * Nat.pow 10 k :=
    ⟨800, 2045, Nat.not_lt.mp large, finite, by decide +kernel⟩
  have least : Nat.pow 10 k ≤ s.digits * Nat.pow 10 s.exponent :=
    (Nat.pow_le_pow_right (by decide) high).trans (Nat.le_mul_of_pos_left _ digits)
  have power : Nat.pow 2 b.exponent ≤ Nat.pow 2 j := Nat.pow_le_pow_right (by decide) low
  have most := (between_of_readsBack reads).2
  rw [Binary.scaledNumerator, ← Nat.add_mul, numerator, Nat.mul_assoc _ s.digits, Binary.numerator,
    Binary.halfGapAbove] at most
  generalize Nat.pow 10 400 = unit at apart most
  have small : 4 * (b.mantissa * Nat.pow 2 b.exponent) + 2 * Nat.pow 2 b.exponent ≤
      (4 * 2 ^ 53 + 2) * Nat.pow 2 j := by
    have mantissa := Nat.mul_le_mul_right (Nat.pow 2 b.exponent) normal.small.le
    omega
  have := Nat.mul_le_mul_left (4 * binaryDenominator) least
  have := Nat.mul_le_mul_right unit small
  omega

theorem Binary.quarterGapBelow_le (b : Binary) : b.quarterGapBelow ≤ 2 * Nat.pow 2 b.exponent := by
  have twice : Nat.pow 2 (b.exponent + 1) = 2 * Nat.pow 2 b.exponent := Nat.pow_succ'
  rw [quarterGapBelow, twice]
  generalize Nat.pow 2 b.exponent = gap
  split <;> omega

/-- A decimal that reads back as a number other than zero has no exponent far below its digits. -/
theorem Scaled.lt_log2_of_readsBack {s : Scaled} {b : Binary} (filled : b.mantissa ≠ 0)
    (reads : s.readsBack b = true) {e : Nat} (place : s.exponent + e = 400) :
    3 * e < Nat.log2 s.digits + 1101 := by
  by_contra far
  have between := (between_of_readsBack reads).1
  have value : s.numerator * 10 ^ e = 2 * (2 * binaryDenominator * s.digits) * Nat.pow 10 400 := by
    rw [numerator, ← place, Nat.pow_eq, Nat.pow_eq, pow_add]
    ring
  rw [Binary.scaledNumerator, Binary.numerator] at between
  have denominator : 2 * binaryDenominator = 2 ^ 1075 := by decide +kernel
  have unit_pos : 0 < Nat.pow 10 400 := by decide +kernel
  generalize Nat.pow 10 400 = unit at between value unit_pos
  have least : 2 * unit ≤ s.numerator := by
    have one : 1 ≤ Nat.pow 2 b.exponent := Nat.two_pow_pos _
    have gap := b.quarterGapBelow_le
    generalize Nat.pow 2 b.exponent = power at *
    have whole := Nat.mul_le_mul_right power (Nat.one_le_iff_ne_zero.mpr filled)
    have scaled := Nat.mul_le_mul_right unit (by omega : 2 + b.quarterGapBelow ≤ 4 * (b.mantissa * power))
    rw [Nat.add_mul] at scaled
    omega
  have small : 2 * binaryDenominator * s.digits < 10 ^ e :=
    calc 2 * binaryDenominator * s.digits
        < 2 * binaryDenominator * 2 ^ (s.digits.log2 + 1) :=
          Nat.mul_lt_mul_of_pos_left Nat.lt_log2_self (by decide +kernel)
      _ = 2 ^ 1075 * 2 ^ (s.digits.log2 + 1) := by rw [denominator]
      _ ≤ 2 ^ (3 * e) := by
          rw [← pow_add]
          exact Nat.pow_le_pow_right (by decide) (by omega)
      _ = (2 ^ 3) ^ e := pow_mul 2 3 e
      _ ≤ 10 ^ e := Nat.pow_le_pow_left (by decide) e
  have enough := Nat.mul_le_mul_right (10 ^ e) least
  rw [value, Nat.mul_right_comm, Nat.mul_le_mul_right_iff unit_pos] at enough
  omega

/-- A decimal that reads back as a number is rounded to that number. -/
theorem toFloat_of_readsBack {x : Float} {s : Scaled} (finite : (Binary.ofFloat x).exponent ≤ 2045)
    (filled : (Binary.ofFloat x).mantissa ≠ 0) (digits : 0 < s.digits)
    (reads : s.readsBack (Binary.ofFloat x) = true) :
    toFloat (Binary.ofFloat x).negative s.digits (s.exponent - 400) = x := by
  have normal := Binary.normal_ofFloat x
  obtain ⟨k, scale⟩ : ∃ k, k = 400 := ⟨_, rfl⟩
  have rounded {num den : Nat} (positive : 0 < den) (value : 4 * num * Nat.pow 10 k = s.numerator * den) :
      (nearest (Binary.ofFloat x).negative num den).toFloat = x := by
    obtain ⟨b, normal', bits, small, sign, reads'⟩ :=
      nearest_readsBack positive (Binary.ofFloat x).negative digits scale value
    obtain ⟨mantissa, exponent⟩ := Scaled.eq_of_readsBack normal' normal reads' reads
    have same : b = Binary.ofFloat x := Binary.ext sign mantissa exponent
    exact Binary.toFloat_eq (by omega) (by rw [← bits, same])
  have power (m n : Nat) : Nat.pow 10 (m + n) = Nat.pow 10 m * Nat.pow 10 n := Nat.pow_add 10 m n
  rw [toFloat]
  unfold nearestDecimal
  rw [if_neg digits.ne']
  split
  · next e place =>
    replace place : (s.exponent : Int) - 400 = e := place
    have place : s.exponent = e + k := by omega
    have bound := Scaled.exponent_lt_of_readsBack normal finite digits reads
    rw [if_neg (by omega)]
    apply rounded Nat.one_pos
    rw [Scaled.numerator, place, power]
    ring
  · next e place =>
    have place : s.exponent + (e + 1) = k := by omega
    have bound := Scaled.lt_log2_of_readsBack filled reads (place.trans scale)
    have positive : 0 < Nat.pow 10 (e + 1) := Nat.pow_pos (by decide)
    rw [if_neg (by omega)]
    apply rounded positive
    rw [Scaled.numerator, ← place, power]
    generalize Nat.pow 10 (e + 1) = den
    ring

theorem toFloat_zero {x : Float} (zero : (Binary.ofFloat x).mantissa = 0) (e : Int) :
    toFloat (Binary.ofFloat x).negative 0 e = x := by
  have least : (Binary.ofFloat x).exponent = 0 := by
    have full := (Binary.normal_ofFloat x).full
    omega
  have same : Binary.ofFloat x = ⟨(Binary.ofFloat x).negative, 0, 0⟩ := Binary.ext rfl zero least
  rw [toFloat]
  unfold nearestDecimal
  rw [if_pos rfl]
  apply Binary.toFloat_eq (Nat.zero_le _)
  rw [← same]

end CodeAgent.Decimal
