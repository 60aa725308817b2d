import CodeAgent.Text.WordChar

/-! Decimal digits of whole numbers. -/
namespace CodeAgent.Decimal
open CodeAgent.Text

/-- The character of a digit below ten. -/
def digitChar (d : Nat) : Char :=
  Char.ofNat (48 + d)

/-- The digits of a number, most significant first, with no leading zero. -/
def natDigits (n : Nat) : List Char :=
  if n < 10 then [digitChar n] else natDigits (n / 10) ++ [digitChar (n % 10)]
termination_by n
decreasing_by omega

/-- The digits of an integer after a minus sign if it is negative. -/
def intDigits : Int → List Char
  | .ofNat n => natDigits n
  | .negSucc n => '-' :: natDigits (n + 1)

/-- An integer in decimal. -/
def intText (n : Int) : String :=
  String.ofList (intDigits n)

/-- A number in decimal. -/
def natText (n : Nat) : String :=
  String.ofList (natDigits n)

/-- The number that digits of any script write; characters that are no digits count as zero. -/
def digitsValue (cs : List Char) : Nat :=
  cs.foldl (fun n c => 10 * n + (digitValue? c).getD 0) 0

/-- Numerals longer than this are refused wherever an integer is read. -/
def maxIntegerDigits : Nat := 4300

private def groupedFrom : List Char → List Char
  | a :: b :: c :: d :: rest => a :: b :: c :: ',' :: groupedFrom (d :: rest)
  | short => short

/-- Digits with a comma before every third one from the right. -/
def grouped (digits : List Char) : List Char :=
  (groupedFrom digits.reverse).reverse

/-- An integer with a comma after every group of thousands. -/
def groupedText (n : Int) : String :=
  let digits := grouped (natDigits n.natAbs)
  String.ofList (if n < 0 then '-' :: digits else digits)

end CodeAgent.Decimal
