import CodeAgent.Wire.Lines

/-! Streams of JSON values, as elements of one array or one after the other: each value is read as
soon as its brackets close. -/
namespace CodeAgent.Wire
open CodeAgent.Text

/-- The elements to look through under a key: none if the value there does not count, those of an
array, and of no other value; a number or a truth value cannot be looked through. -/
def elementsUnder (fields : Json.Fields) (key : String) : Except Breakdown (List Json) :=
  match OrderedMap.get? fields key with
  | none => .ok []
  | some v =>
    if !v.isPresent then .ok []
    else match v with
      | .arr items => .ok items
      | .int _ | .float _ | .bool _ => .error .wrongType
      | _ => .ok []

/-- The text of a part. -/
def partText? (v : Json) : Option String := (v.get? "text").bind Json.str?

/-- The texts of a candidate. -/
def candidateTexts (v : Json) : Except Breakdown (List String) :=
  match v.get? "content" with
  | some (.obj content) => do return (← elementsUnder content "parts").filterMap partText?
  | _ => .ok []

/-- The texts of a response. -/
def responseTexts (v : Json) : Except Breakdown (List String) :=
  match v with
  | .obj fields => do return (← (← elementsUnder fields "candidates").mapM candidateTexts).flatten
  | _ => .ok []

/-- The texts of a response, or of an array of them. -/
def valueTexts (v : Json) : Except Breakdown (List String) :=
  match v with
  | .arr items => do return (← items.mapM responseTexts).flatten
  | _ => responseTexts v

/-- Where the reader of a stream of values stands. The value that is open is kept in reverse, with its
depth; the outermost array is open or not. -/
structure Scan where
  pending : Utf8.Pending := .start
  value : List Char := []
  depth : Nat := 0
  inString : Bool := false
  escaped : Bool := false
  arrayOpen : Bool := false
  seenValue : Bool := false
  deriving DecidableEq, Repr

namespace Scan

/-- A character opens an array or an object. -/
def opens (c : Char) : Bool := c == '{' || c == '['

/-- A character closes an array or an object. -/
def closes (c : Char) : Bool := c == '}' || c == ']'

/-- Leave the value that is open. -/
def reset (s : Scan) : Scan :=
  { s with value := [], depth := 0, inString := false, escaped := false }

/-- A character between values. The first bracket of the stream opens the outermost array. -/
def between (s : Scan) (c : Char) : Scan :=
  if c == '[' && !s.arrayOpen && !s.seenValue then { s with arrayOpen := true }
  else if c == ']' && s.arrayOpen then { s with arrayOpen := false }
  else if opens c then { s with value := [c], depth := 1, seenValue := true }
  else s

/-- A character inside a string. -/
def insideString (s : Scan) (c : Char) : Scan :=
  if s.escaped then { s with escaped := false }
  else if c == '\\' then { s with escaped := true }
  else if c == '"' then { s with inString := false }
  else s

/-- A character inside a value: the state after it, and the text of the value if it is complete. -/
def inside (s : Scan) (c : Char) : Scan × Option (List Char) :=
  let s := { s with value := c :: s.value }
  if s.inString then (s.insideString c, none)
  else if c == '"' then ({ s with inString := true }, none)
  else if opens c then ({ s with depth := s.depth + 1 }, none)
  else if closes c then
    if s.depth = 1 then (s.reset, some s.value.reverse) else ({ s with depth := s.depth - 1 }, none)
  else (s, none)

/-- A character: the state after it, and the text of a value that it completes. -/
def step (s : Scan) (c : Char) : Scan × Option (List Char) :=
  if s.depth = 0 then (s.between c, none) else s.inside c

/-- How the texts in a complete value are read. -/
abbrev TextReader := List Char → Except Failure (List String)

/-- The texts in a value. -/
def textsOf : TextReader := fun value =>
  match readJson value with
  | .ok (some v) => (valueTexts v).mapError .breakdown
  | .ok none => .ok []
  | .error b => .error (.breakdown b)

/-- Take in characters. A failure drops those after it. -/
def run (read : TextReader) (s : Scan) : List Char → Scan × Except Failure (List String)
  | [] => (s, .ok [])
  | c :: cs =>
    match s.step c with
    | (s, none) => run read s cs
    | (s, some value) => match read value with
      | .error e => (s, .error e)
      | .ok texts =>
        let (s, rest) := run read s cs
        (s, rest.map (texts ++ ·))

/-- Take in bytes. -/
def feed (read : TextReader) (s : Scan) (chunk : Bytes) : Scan × Except Failure (List String) :=
  let (cs, pending) := Utf8.run s.pending chunk
  { s with pending }.run read (Utf8.repair cs)

/-- How much of an unfinished value a report shows. -/
def maxShown : Nat := 100

/-- The fault of a stream that ends inside a value. -/
def unfinished (value : List Char) : Fault :=
  Fault.badResponse none ("Stream ended inside an unterminated JSON value: " ++
    String.ofList (value.take maxShown))

/-- Take in the end of the stream. -/
def finish (read : TextReader) (s : Scan) : Scan × Except Failure (List String) :=
  let rest := Utf8.repair (Utf8.finish s.pending)
  match { s with pending := .start }.run read rest with
  | (s, .error e) => (s, .error e)
  | (s, .ok texts) =>
    if 0 < s.depth then (s.reset, .error (.fault (unfinished s.value.reverse))) else (s, .ok texts)

end Scan

/-! Decoders of streamed replies, whatever their format: bytes go in as they arrive, pieces of text
come out. -/

/-- A decoder with what it keeps between two chunks. -/
inductive Decoder where
  | lines (format : LineFormat) (kept : Bytes)
  | values (scan : Scan)

namespace Decoder

/-- Take in a chunk. -/
def feed : Decoder → Bytes → Decoder × Except Failure (List String)
  | lines f kept, chunk =>
    let (kept, out) := feedLines f kept chunk
    (lines f kept, out.mapError .breakdown)
  | values scan, chunk =>
    let (scan, out) := scan.feed Scan.textsOf chunk
    (values scan, out)

/-- Take in the end of the stream. -/
def finish : Decoder → Decoder × Except Failure (List String)
  | lines f kept => (lines f [], (finishLines f kept).mapError .breakdown)
  | values scan =>
    let (scan, out) := scan.finish Scan.textsOf
    (values scan, out)

/-- The depth of the value that is open. -/
def depth : Decoder → Nat
  | lines .. => 0
  | values scan => scan.depth

/-- Take in chunks and then the end of the stream: the pieces of text, and whether all went well. -/
def drain (d : Decoder) : List Bytes → List String × Except Failure Unit
  | [] => match d.finish.2 with
    | .ok texts => (texts, .ok ())
    | .error e => ([], .error e)
  | chunk :: chunks =>
    let (d, out) := d.feed chunk
    match out with
    | .error e => ([], .error e)
    | .ok texts =>
      let (rest, ending) := drain d chunks
      (texts ++ rest, ending)

end Decoder
end CodeAgent.Wire
