import CodeAgent.Decimal.Binary
import CodeAgent.Decimal.Digits

/-! The shortest decimal that reads back as a given floating-point number. -/
namespace CodeAgent.Decimal

/-- A positive decimal `digits · 10 ^ (exponent - 400)`. -/
structure Scaled where
  digits : Nat
  exponent : Nat
  deriving DecidableEq, Repr

/-- A decimal scaled to the denominator `4 · 2 ^ 1074 · Nat.pow 10 400`. -/
def Scaled.numerator (s : Scaled) : Nat :=
  4 * binaryDenominator * s.digits * Nat.pow 10 s.exponent

/-- A floating-point number over the same denominator. -/
def Binary.scaledNumerator (b : Binary) : Nat :=
  4 * b.numerator * Nat.pow 10 400

/-- A decimal reads back as the number when it lies between the midpoints to its neighbours; the
midpoints themselves round to the number with the even mantissa. -/
def Scaled.readsBack (s : Scaled) (b : Binary) : Bool :=
  let below := b.scaledNumerator - b.quarterGapBelow * Nat.pow 10 400
  let above := b.scaledNumerator + 2 * b.halfGapAbove * Nat.pow 10 400
  let n := s.numerator
  if b.mantissa % 2 = 0 then below ≤ n && n ≤ above else below < n && n < above

private def distance (a b : Nat) : Nat := (a - b) + (b - a)

/-- The neighbours of the number on the grid of multiples of a power of ten that read back, the
nearer first, and the lower first on a tie between them when it is even. -/
def gridHit? (b : Binary) (exponent : Nat) : Option Scaled :=
  let unit := 4 * binaryDenominator * Nat.pow 10 exponent
  let low : Scaled := ⟨b.scaledNumerator / unit, exponent⟩
  let high : Scaled := ⟨low.digits + 1, exponent⟩
  let toLow := distance b.scaledNumerator low.numerator
  let toHigh := distance b.scaledNumerator high.numerator
  let lowFirst := toLow < toHigh || (toLow == toHigh && low.digits % 2 == 0)
  let order := if lowFirst then [low, high] else [high, low]
  order.find? fun s => 0 < s.digits && s.readsBack b

/-- The first grid with a hit, from a given one downward. -/
def firstHit? (b : Binary) : Nat → Option Scaled
  | 0 => gridHit? b 0
  | e + 1 => (gridHit? b (e + 1)).orElse fun _ => firstHit? b e

/-- The fewest digits that read back as a positive number, and the nearest of those. -/
def shortest (b : Binary) : Scaled :=
  (firstHit? b 710).getD ⟨0, 0⟩

/-- How a kind of output writes floating-point numbers. -/
structure FloatFormat where
  infinity : String
  notANumber : String

/-- Digits with a point after as many of them as its place says, filled up with zeros. -/
def pointed (digits : List Char) (point : Int) : List Char :=
  let n := digits.length
  if point ≤ 0 then '0' :: '.' :: List.replicate (-point).toNat '0' ++ digits
  else if (n : Int) ≤ point then digits ++ List.replicate (point.toNat - n) '0' ++ ['.', '0']
  else digits.take point.toNat ++ '.' :: digits.drop point.toNat

/-- Digits with the point after the first one, if there are more. -/
def mantissaText : List Char → List Char
  | [] => ['0']
  | [d] => [d]
  | d :: ds => d :: '.' :: ds

/-- The sign and at least two digits of a power of ten. -/
def exponentText (e : Int) : List Char :=
  let digits := natDigits e.natAbs
  (if e < 0 then '-' else '+') :: (if digits.length < 2 then '0' :: digits else digits)

/-- Digits with the point after the first one, and the power of ten that puts it in its place. -/
def scientific (digits : List Char) (point : Int) : List Char :=
  mantissaText digits ++ 'e' :: exponentText (point - 1)

/-- The text of a decimal without the zeros at its end: positional when the leading digit stands from
the fourth place after the point to the sixteenth before it, and otherwise with an exponent of at
least two digits. -/
def Scaled.text (s : Scaled) : List Char :=
  let all := natDigits s.digits
  let digits := (all.reverse.dropWhile (· == '0')).reverse
  let point : Int := (all.length : Int) + s.exponent - 400
  if -4 < point ∧ point ≤ 16 then pointed digits point else scientific digits point

/-- The text of a number without its sign: its shortest digits if it is finite. -/
def FloatFormat.magnitude (f : FloatFormat) (x : Float) : List Char :=
  if x.isInf then f.infinity.toList
  else if (Binary.ofFloat x).mantissa = 0 then ['0', '.', '0']
  else (shortest (Binary.ofFloat x)).text

/-- The text of a floating-point number. -/
def FloatFormat.text (f : FloatFormat) (x : Float) : String :=
  if x.isNaN then f.notANumber
  else String.ofList ((if (Binary.ofFloat x).negative then ['-'] else []) ++ f.magnitude x)

/-- Numbers in running text. -/
def plainFormat : FloatFormat := ⟨"inf", "nan"⟩

/-- A number with a fixed count of decimal places, a half rounded to the even neighbour. -/
def fixedText (places : Nat) (x : Float) : String :=
  if x.isNaN then "nan"
  else
    let b := Binary.ofFloat x
    let sign := if b.negative then ['-'] else []
    if x.isInf then String.ofList (sign ++ ['i', 'n', 'f'])
    else
      let digits := natDigits (roundHalfEven (b.numerator * Nat.pow 10 places) binaryDenominator)
      let padded := List.replicate (places + 1 - digits.length) '0' ++ digits
      let whole := padded.take (padded.length - places)
      let fraction := padded.drop (padded.length - places)
      String.ofList (sign ++ (if places = 0 then whole else whole ++ '.' :: fraction))

end CodeAgent.Decimal
