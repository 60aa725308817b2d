/-! Floating-point numbers as exact fractions, and fractions rounded to floating point. -/
namespace CodeAgent.Decimal

/-- A finite floating-point number is `mantissa · 2 ^ (exponent - 1074)`, up to its sign. -/
@[ext]
structure Binary where
  negative : Bool
  mantissa : Nat
  exponent : Nat
  deriving DecidableEq, Repr

/-- The parts of a floating-point number that is finite. -/
def Binary.ofFloat (x : Float) : Binary :=
  let bits := x.toBits.toNat
  let exponent := (bits >>> 52) % 2048
  let fraction := bits % Nat.pow 2 52
  { negative := bits >>> 63 == 1
    mantissa := if exponent = 0 then fraction else fraction + Nat.pow 2 52
    exponent := exponent - 1 }

/-- The exact value as a numerator over `2 ^ 1074`. -/
def Binary.numerator (b : Binary) : Nat :=
  b.mantissa * Nat.pow 2 b.exponent

/-- The common denominator of all finite floating-point numbers. -/
def binaryDenominator : Nat := Nat.pow 2 1074

/-- Half the distance to the next number above, over twice the common denominator. -/
def Binary.halfGapAbove (b : Binary) : Nat :=
  Nat.pow 2 b.exponent

/-- Half the distance to the next number below, over four times the common denominator; below a
power of two the numbers lie twice as close. -/
def Binary.quarterGapBelow (b : Binary) : Nat :=
  if b.mantissa = Nat.pow 2 52 ∧ 0 < b.exponent then Nat.pow 2 b.exponent
  else Nat.pow 2 (b.exponent + 1)

/-- Round a fraction to the nearest integer, a half to the even neighbour. -/
def roundHalfEven (num den : Nat) : Nat :=
  let q := num / den
  let r := num % den
  if 2 * r < den then q
  else if den < 2 * r then q + 1
  else if q % 2 = 0 then q else q + 1

/-- Sign, exponent and mantissa as the bits of a floating-point number. A mantissa that was rounded up to
`2 ^ 53` carries into the exponent. -/
def Binary.bits (b : Binary) : Nat :=
  (if b.negative then Nat.pow 2 63 else 0) + b.exponent * Nat.pow 2 52 + b.mantissa

/-- The floating-point number with given parts; an infinity if the exponent is too great. -/
def Binary.toFloat (b : Binary) : Float :=
  let b := if 2045 < b.exponent then { b with mantissa := Nat.pow 2 52, exponent := 2046 } else b
  Float.ofBits (UInt64.ofNat b.bits)

/-- A fraction over the common denominator rounded to a mantissa of 53 bits, or of fewer ones where the
exponent is least. -/
def nearest (negative : Bool) (num den : Nat) : Binary :=
  let exponent := Nat.log2 (num / den) - 52
  { negative, exponent, mantissa := roundHalfEven num (den * Nat.pow 2 exponent) }

/-- The parts of the number nearest to `digits · 10 ^ exponent`. Exponents far outside the range are
settled first, so that no large power is computed. -/
def nearestDecimal (negative : Bool) (digits : Nat) (exponent : Int) : Binary :=
  if digits = 0 then ⟨negative, 0, 0⟩
  else match exponent with
    | .ofNat e =>
      if 400 ≤ e then ⟨negative, 0, 2046⟩
      else nearest negative (digits * Nat.pow 10 e * binaryDenominator) 1
    | .negSucc e =>
      if Nat.log2 digits + 1101 ≤ 3 * (e + 1) then ⟨negative, 0, 0⟩
      else nearest negative (digits * binaryDenominator) (Nat.pow 10 (e + 1))

/-- The floating-point number nearest to `digits · 10 ^ exponent`. -/
def toFloat (negative : Bool) (digits : Nat) (exponent : Int) : Float :=
  (nearestDecimal negative digits exponent).toFloat

end CodeAgent.Decimal
