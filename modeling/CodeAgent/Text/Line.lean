/-! Lines of a text, under the three notions of a line end in use, and the parts of a text that are given by
counts: lines by number, and starts of a given length. -/
namespace CodeAgent.Text

/-- The characters that end a line in running text. -/
def isLineEnd (c : Char) : Bool :=
  let n := c.toNat
  (10 ≤ n && n ≤ 13) || (28 ≤ n && n ≤ 30) || n == 0x85 || n == 0x2028 || n == 0x2029

/-- The lines of a text after the reversed start of the first one. -/
def lineRunsFrom (line : List Char) : List Char → List (List Char × List Char)
  | [] => if line.isEmpty then [] else [(line.reverse, [])]
  | '\r' :: '\n' :: cs => (line.reverse, ['\r', '\n']) :: lineRunsFrom [] cs
  | c :: cs =>
    if isLineEnd c then (line.reverse, [c]) :: lineRunsFrom [] cs else lineRunsFrom (c :: line) cs

/-- The lines of a text, each with the characters that end it; a carriage return and a line feed
that follow each other end one line, and only the last line may have no end. -/
def lineRuns (cs : List Char) : List (List Char × List Char) :=
  lineRunsFrom [] cs

/-- The lines of a text without their ends. -/
def lines (cs : List Char) : List (List Char) :=
  (lineRuns cs).map (·.1)

/-- The pieces of a list between the elements equal to a separator: one more than there are
separators. -/
def splitAtEach {α : Type} [BEq α] (sep : α) : List α → List (List α)
  | [] => [[]]
  | c :: cs =>
    if c == sep then [] :: splitAtEach sep cs
    else match splitAtEach sep cs with
      | [] => [[c]]
      | piece :: pieces => (c :: piece) :: pieces

/-- Every carriage return, with the line feed that may follow it, as one line feed. -/
def unifyLineEnds : List Char → List Char
  | [] => []
  | '\r' :: '\n' :: cs => '\n' :: unifyLineEnds cs
  | '\r' :: cs => '\n' :: unifyLineEnds cs
  | c :: cs => c :: unifyLineEnds cs

/-- A line without the carriage return at its end. -/
def dropReturn (line : List Char) : List Char :=
  if line.getLast? == some '\r' then line.dropLast else line

/-- Pieces without the last one, if that is empty. -/
def dropEmptyLast (pieces : List (List Char)) : List (List Char) :=
  if pieces.getLast? == some [] then pieces.dropLast else pieces

/-- The lines of a file. Only a line feed ends a line, a carriage return before it does not count,
and an end after the last line starts no further line. -/
def fileLines (cs : List Char) : List (List Char) :=
  (dropEmptyLast (splitAtEach '\n' cs)).map dropReturn

/-- What stands for a range without lines. -/
def emptyRange : String := "(Empty range or out of bounds)"

/-- The lines from one number to another, both included and counted from one. A missing bound is the
start or the end of the text. -/
def linesBetween (first last : Option Int) (ls : List (List Char)) : List (List Char) :=
  let skip := (first.getD 1 - 1).toNat
  let stop := match last with
    | some n => min n.toNat ls.length
    | none => ls.length
  (ls.take stop).drop skip

/-- The lines of a range as text. -/
def lineRange (content : String) (first last : Option Int) : String :=
  match linesBetween first last (fileLines content.toList) with
  | [] => emptyRange
  | ls => String.ofList (['\n'].intercalate ls)

/-- The first elements of a list: as many as a count says, or, if it is negative, all but as many at
the end. -/
def takeUpTo {α : Type} (count : Int) (xs : List α) : List α :=
  if count < 0 then xs.take (xs.length - (-count).toNat) else xs.take count.toNat

/-- The start of a text on one line, with a mark if there is more. -/
def preview (limit : Int) (words : String) : String :=
  if words.length ≤ limit then words
  else String.ofList (takeUpTo limit words.toList) ++ "..."

end CodeAgent.Text
