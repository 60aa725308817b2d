import CodeAgent.Json.Reader
import CodeAgent.Text.Utf8

/-! The text of JSON documents in any of the Unicode encodings: the encoding shows in the first
bytes, of which at most one pair belongs to a mark, and the others to ASCII characters. -/
namespace CodeAgent.Json
open CodeAgent.Text

/-- The order of the bytes of a number. -/
inductive ByteOrder where
  | big
  | little
  deriving DecidableEq, Repr

private def pair (o : ByteOrder) (a b : UInt8) : Nat :=
  match o with
  | .big => a.toNat * 256 + b.toNat
  | .little => b.toNat * 256 + a.toNat

/-- The characters that units of two bytes encode. -/
def decode16? (o : ByteOrder) : Bytes → Option (List Char)
  | [] => some []
  | a :: b :: more =>
    let n := pair o a b
    if 0xd800 ≤ n && n < 0xdc00 then
      match more with
      | c :: d :: rest =>
        let m := pair o c d
        if 0xdc00 ≤ m && m < 0xe000 then
          (decode16? o rest).map (Char.ofNat (0x10000 + (n - 0xd800) * 0x400 + (m - 0xdc00)) :: ·)
        else none
      | _ => none
    else if 0xdc00 ≤ n && n < 0xe000 then none
    else (decode16? o more).map (Char.ofNat n :: ·)
  | _ => none

/-- The characters that units of four bytes encode. -/
def decode32? (o : ByteOrder) : Bytes → Option (List Char)
  | [] => some []
  | a :: b :: c :: d :: more =>
    let n := match o with
      | .big => pair o a b * 65536 + pair o c d
      | .little => pair o c d * 65536 + pair o a b
    if n.isValidChar then (decode32? o more).map (Char.ofNat n :: ·) else none
  | _ => none

/-- The text of a document that starts with no mark. -/
def unmarkedText? (bs : Bytes) : Option (List Char) :=
  match bs with
  | a :: b :: c :: d :: _ =>
    if a == 0 then if b == 0 then decode32? .big bs else decode16? .big bs
    else if b == 0 then if c == 0 && d == 0 then decode32? .little bs else decode16? .little bs
    else Utf8.decode? bs
  | [a, b] =>
    if a == 0 then decode16? .big bs
    else if b == 0 then decode16? .little bs
    else Utf8.decode? bs
  | _ => Utf8.decode? bs

/-- The text of a document. -/
def textOfBytes? (bs : Bytes) : Option (List Char) :=
  if [0xff, 0xfe, 0, 0].isPrefixOf bs then decode32? .little (bs.drop 4)
  else if [0, 0, 0xfe, 0xff].isPrefixOf bs then decode32? .big (bs.drop 4)
  else if [0xfe, 0xff].isPrefixOf bs then decode16? .big (bs.drop 2)
  else if [0xff, 0xfe].isPrefixOf bs then decode16? .little (bs.drop 2)
  else if [0xef, 0xbb, 0xbf].isPrefixOf bs then Utf8.decode? (bs.drop 3)
  else unmarkedText? bs

end CodeAgent.Json
