/-! UTF-8: encoding, and decoding that can stop and resume between any two bytes. -/
namespace CodeAgent.Text

/-- A sequence of bytes. -/
abbrev Bytes := List UInt8

namespace Utf8

/-- Where a decoder stands between two bytes: between characters, or inside one that still needs
`needed` bytes, the next of them from `low` to `high`, and has `value` so far. -/
inductive Pending where
  | start
  | inside (needed low high value : Nat)
  deriving DecidableEq, Repr

/-- The character that stands for an invalid sequence. -/
def replacement : Char := '\ufffd'

/-- The state after the first byte of a character, or nothing if no character starts so. -/
def leadByte (b : Nat) : Option Pending :=
  if 0xc2 ≤ b ∧ b ≤ 0xdf then some (.inside 1 0x80 0xbf (b - 0xc0))
  else if b = 0xe0 then some (.inside 2 0xa0 0xbf 0)
  else if b = 0xed then some (.inside 2 0x80 0x9f 0xd)
  else if 0xe1 ≤ b ∧ b ≤ 0xef then some (.inside 2 0x80 0xbf (b - 0xe0))
  else if b = 0xf0 then some (.inside 3 0x90 0xbf 0)
  else if b = 0xf4 then some (.inside 3 0x80 0x8f 4)
  else if 0xf1 ≤ b ∧ b ≤ 0xf3 then some (.inside 3 0x80 0xbf (b - 0xf0))
  else none

/-- One byte read between characters; `none` in the output marks an invalid sequence. -/
def beginChar (b : UInt8) : List (Option Char) × Pending :=
  if b.toNat < 0x80 then ([some (Char.ofNat b.toNat)], .start)
  else match leadByte b.toNat with
    | some p => ([], p)
    | none => ([none], .start)

/-- One byte: the characters it completes and the state after it. A byte that cannot continue a
character ends an invalid sequence and is read again as a first byte. -/
def step : Pending → UInt8 → List (Option Char) × Pending
  | .start, b => beginChar b
  | .inside needed low high value, b =>
    if low ≤ b.toNat ∧ b.toNat ≤ high then
      let value := value * 64 + (b.toNat - 0x80)
      if needed ≤ 1 then ([some (Char.ofNat value)], .start)
      else ([], .inside (needed - 1) 0x80 0xbf value)
    else
      let (cs, p) := beginChar b
      (none :: cs, p)

/-- The characters completed by a sequence of bytes and the state after it. -/
def run (p : Pending) : Bytes → List (Option Char) × Pending
  | [] => ([], p)
  | b :: bs =>
    let (cs, q) := step p b
    let (ds, r) := run q bs
    (cs ++ ds, r)

/-- What the end of the input completes: an unfinished character is invalid. -/
def finish : Pending → List (Option Char)
  | .start => []
  | .inside .. => [none]

/-- Every invalid sequence as one replacement character. -/
def repair (cs : List (Option Char)) : List Char :=
  cs.map fun c => c.getD replacement

/-- Decode bytes, with one replacement character for each maximal invalid part. -/
def decode (bs : Bytes) : List Char :=
  let (cs, p) := run .start bs
  repair (cs ++ finish p)

/-- Decode bytes that must be valid throughout. -/
def decode? (bs : Bytes) : Option (List Char) :=
  let (cs, p) := run .start bs
  (cs ++ finish p).mapM id

/-- The bytes of a text. -/
def encode (cs : List Char) : Bytes :=
  cs.flatMap String.utf8EncodeChar

end Utf8

/-- The bytes of a text in UTF-8. -/
def utf8Bytes (s : String) : Bytes :=
  Utf8.encode s.toList

/-- The text that bytes encode, invalid parts replaced. -/
def ofUtf8 (bs : Bytes) : String :=
  String.ofList (Utf8.decode bs)

end CodeAgent.Text
