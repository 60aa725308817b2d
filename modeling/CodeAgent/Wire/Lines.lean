import CodeAgent.Failure
import CodeAgent.Text.Line
import CodeAgent.Text.Utf8

/-! Streams of lines: each line that a line feed ends, or the end of the stream, carries at most one
piece of text. -/
namespace CodeAgent.Wire
open CodeAgent.Text

/-- What a line says: a JSON object with a message, or an event with a choice. -/
inductive LineFormat where
  | objects
  | events
  deriving DecidableEq, Repr

/-- Read JSON; a text that is no JSON is nothing, and one beyond the limits is a breakdown. -/
def readJson (cs : List Char) : Except Breakdown (Option Json) :=
  match Json.readChars? cs with
  | .ok v => .ok (some v)
  | .error .malformed => .ok none
  | .error e => .error (Failure.ofRead e)

/-- The text of a message: its content. -/
def messageText (v : Json) : Option String :=
  ((v.get? "message").bind (·.get? "content")).bind Json.str?

/-- The first choice of an event. -/
def firstChoice (v : Json) : Option Json :=
  ((v.get? "choices").bind Json.arr?).bind List.head?

/-- The text of an event: the content that its first choice adds. -/
def eventText (v : Json) : Option String :=
  (((firstChoice v).bind (·.get? "delta")).bind (·.get? "content")).bind Json.str?

/-- What marks a line of an event stream that carries data. -/
def dataMark : List Char := ['d', 'a', 't', 'a', ':', ' ']

/-- What ends an event stream. -/
def doneMark : List Char := ['[', 'D', 'O', 'N', 'E', ']']

namespace LineFormat

/-- The text on a line that is trimmed and not empty. -/
def textOf : LineFormat → List Char → Except Breakdown (Option String)
  | objects, line => return (← readJson line).bind messageText
  | events, line =>
    match dropStart? dataMark line with
    | none => .ok none
    | some rest =>
      let data := trimChars rest
      if data == doneMark then .ok none
      else do return (← readJson data).bind eventText

/-- The pieces of text on a line. -/
def piecesOf (f : LineFormat) (line : Bytes) : Except Breakdown (List String) :=
  match trimChars (Utf8.decode line) with
  | [] => .ok []
  | cs => do return ((← f.textOf cs).filter (· != "")).toList

end LineFormat

/-- The byte that ends a line. -/
def lineFeed : UInt8 := 10

/-- The complete lines of a sequence of bytes, and what follows the last of them. -/
def splitLines : Bytes → List Bytes × Bytes
  | [] => ([], [])
  | b :: bs =>
    let (done, rest) := splitLines bs
    if b == lineFeed then ([] :: done, rest)
    else match done with
      | [] => ([], b :: rest)
      | line :: more => ((b :: line) :: more, rest)

/-- The pieces of text on lines in order, up to the first breakdown; then also the lines after it. -/
def piecesOfLines (f : LineFormat) : List Bytes → Except (Breakdown × List Bytes) (List String)
  | [] => .ok []
  | line :: more =>
    match f.piecesOf line with
    | .error b => .error (b, more)
    | .ok pieces => match piecesOfLines f more with
      | .error e => .error e
      | .ok rest => .ok (pieces ++ rest)

/-- Lines put together again, in front of a rest. -/
def joinLines (lines : List Bytes) (rest : Bytes) : Bytes :=
  lines.foldr (fun line bs => line ++ lineFeed :: bs) rest

/-- Take in bytes: the bytes that are kept for later, and the pieces of text. After a breakdown the
lines that follow are kept. -/
def feedLines (f : LineFormat) (kept chunk : Bytes) : Bytes × Except Breakdown (List String) :=
  let (lines, rest) := splitLines (kept ++ chunk)
  match piecesOfLines f lines with
  | .ok pieces => (rest, .ok pieces)
  | .error (b, more) => (joinLines more rest, .error b)

/-- The pieces of text on a last line without an end. -/
def finishLines (f : LineFormat) (kept : Bytes) : Except Breakdown (List String) :=
  f.piecesOf kept

end CodeAgent.Wire
