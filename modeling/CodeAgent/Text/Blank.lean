/-! White space: the class, trimming and words. -/
namespace CodeAgent.Text

/-- White space in running text, the ASCII separators 1C to 1F included. -/
def isBlank (c : Char) : Bool :=
  let n := c.toNat
  (9 ≤ n && n ≤ 13) || (28 ≤ n && n ≤ 32) || n == 0x85 || n == 0xa0 || n == 0x1680 ||
    (0x2000 ≤ n && n ≤ 0x200a) || n == 0x2028 || n == 0x2029 || n == 0x202f || n == 0x205f ||
    n == 0x3000

/-- White space around a numeral: the standard property, without the ASCII separators. -/
def isNumeralBlank (c : Char) : Bool :=
  isBlank c && !(28 ≤ c.toNat && c.toNat ≤ 31)

/-- Drop the elements of a class from both ends. -/
def trimBy {α : Type} (p : α → Bool) (cs : List α) : List α :=
  ((cs.dropWhile p).reverse.dropWhile p).reverse

/-- Drop the characters of a class from the end. -/
def trimEndBy (p : Char → Bool) (cs : List Char) : List Char :=
  (cs.reverse.dropWhile p).reverse

/-- Drop white space from both ends. -/
def trimChars (cs : List Char) : List Char :=
  trimBy isBlank cs

/-- Drop white space from both ends. -/
def trim (s : String) : String :=
  String.ofList (trimChars s.toList)

private def wordsFrom (word : List Char) : List Char → List (List Char)
  | [] => if word.isEmpty then [] else [word.reverse]
  | c :: cs =>
    if isBlank c then
      if word.isEmpty then wordsFrom [] cs else word.reverse :: wordsFrom [] cs
    else wordsFrom (c :: word) cs

/-- The maximal runs of characters that are not white space. -/
def words (cs : List Char) : List (List Char) :=
  wordsFrom [] cs

/-- The words of a text with one space between neighbours. -/
def squeeze (s : String) : String :=
  String.intercalate " " ((words s.toList).map String.ofList)

end CodeAgent.Text
