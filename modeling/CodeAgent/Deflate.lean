import CodeAgent.Text.Utf8

/-! Compressed data, from its bits to the frame around it. Bits come from bytes, the lowest bit of each byte first. -/
namespace CodeAgent.Deflate
open CodeAgent.Text

/-- What is left to read: the bits of a byte that is begun, and whole bytes. -/
structure BitSource where
  bits : List Bool
  bytes : Bytes

namespace BitSource

/-- A source of whole bytes. -/
def ofBytes (bs : Bytes) : BitSource := ⟨[], bs⟩

/-- The bits of a byte, the lowest first. -/
def bitsOf (b : UInt8) : List Bool :=
  (List.range 8).map b.toNat.testBit

/-- The next bit. -/
def next? (s : BitSource) : Option (Bool × BitSource) :=
  match s.bits with
  | b :: bits => some (b, { s with bits })
  | [] => match s.bytes with
    | [] => none
    | byte :: bytes => match bitsOf byte with
      | [] => none
      | b :: bits => some (b, ⟨bits, bytes⟩)

/-- The number that some bits make, the lowest first. -/
def number? : Nat → BitSource → Option (Nat × BitSource)
  | 0, s => some (0, s)
  | n + 1, s => do
    let (b, s) ← s.next?
    let (high, s) ← number? n s
    some (2 * high + b.toNat, s)

/-- Leave the byte that is begun. -/
def align (s : BitSource) : BitSource := { s with bits := [] }

/-- The number of bits that are left. -/
def size (s : BitSource) : Nat := s.bits.length + 8 * s.bytes.length

end BitSource

/-! Inflating: blocks of stored bytes, and blocks of symbols in codes of different lengths. -/

/-- A code: for each length from one bit on, the symbols of that length in order. -/
abbrev Code := List (List Nat)

namespace Code

/-- The longest codeword. -/
def maxLength : Nat := 15

/-- The code in which each symbol has a codeword of a given length; length zero is no codeword. -/
def ofLengths (lengths : List Nat) : Code :=
  (List.range maxLength).map fun n =>
    (lengths.zipIdx.filter (·.1 == n + 1)).map (·.2)

/-- The number of codewords of full length that stay free, or nothing if there are too many. -/
def free? (code : Code) : Option Nat :=
  code.foldlM (fun free symbols =>
    if 2 * free < symbols.length then none else some (2 * free - symbols.length)) 1

/-- A code has no codeword. -/
def isEmpty (code : Code) : Bool := code.all List.isEmpty

/-- A code has exactly one codeword, and it is of one bit. -/
def isSingle (code : Code) : Bool :=
  code.head?.map List.length == some 1 && (code.drop 1).all List.isEmpty

/-- Every sequence of bits starts with a codeword. -/
def isComplete (code : Code) : Bool := code.free? == some 0

/-- A code may leave codewords free only if it has at most one. -/
def isUsable (code : Code) : Bool :=
  code.isEmpty || code.isComplete || (code.free?.isSome && code.isSingle)

/-- The symbol of the next codeword. The arguments count the first codeword of a length and what the
bits so far make. -/
def readFrom (first value : Nat) : Code → BitSource → Option (Nat × BitSource)
  | [], _ => none
  | symbols :: longer, s => do
    let (b, s) ← s.next?
    let value := 2 * value + b.toNat
    if value < first + symbols.length then some (← symbols[value - first]?, s)
    else readFrom (2 * (first + symbols.length)) value longer s

/-- The symbol of the next codeword. -/
def read? (code : Code) (s : BitSource) : Option (Nat × BitSource) :=
  readFrom 0 0 code s

end Code

/-- The bits that follow a symbol for a length or a distance, and the least value. -/
private def spans (start perStep : Nat) (extra : List Nat) : List (Nat × Nat) :=
  (extra.foldl (fun (acc : List (Nat × Nat) × Nat) bits =>
    (acc.1 ++ [(bits, acc.2)], acc.2 + perStep * Nat.pow 2 bits)) ([], start)).1

/-- The lengths of copies. -/
def lengthSpans : List (Nat × Nat) :=
  (spans 3 1 [0, 0, 0, 0, 0, 0, 0, 0, 1, 1, 1, 1, 2, 2, 2, 2, 3, 3, 3, 3, 4, 4, 4, 4, 5, 5, 5, 5]) ++
    [(0, 258)]

/-- The distances of copies. -/
def distanceSpans : List (Nat × Nat) :=
  spans 1 1 [0, 0, 0, 0, 1, 1, 2, 2, 3, 3, 4, 4, 5, 5, 6, 6, 7, 7, 8, 8, 9, 9, 10, 10, 11, 11, 12, 12,
    13, 13]

private def spanned? (table : List (Nat × Nat)) (symbol : Nat) (s : BitSource) :
    Option (Nat × BitSource) := do
  let (bits, least) ← table[symbol]?
  let (n, s) ← BitSource.number? bits s
  some (least + n, s)

/-- Copy bytes from a distance back to the end of an output, which is given in reverse. -/
def copyBack (distance : Nat) : Nat → Bytes → Option Bytes
  | 0, out => some out
  | n + 1, out => match out[distance - 1]? with
    | some b => copyBack distance n (b :: out)
    | none => none

/-- The symbols of a block up to its end. The first argument bounds their number, and the output is in
reverse. -/
def readSymbols (literals distances : Code) :
    Nat → BitSource → Bytes → Option (Bytes × BitSource)
  | 0, _, _ => none
  | fuel + 1, s, out => do
    let (symbol, s) ← literals.read? s
    if symbol < 256 then readSymbols literals distances fuel s (UInt8.ofNat symbol :: out)
    else if symbol = 256 then some (out, s)
    else
      let (length, s) ← spanned? lengthSpans (symbol - 257) s
      let (place, s) ← distances.read? s
      let (distance, s) ← spanned? distanceSpans place s
      let out ← copyBack distance length out
      readSymbols literals distances fuel s out

/-- The codes of blocks that bring none. -/
def fixedLiterals : Code :=
  Code.ofLengths (List.replicate 144 8 ++ List.replicate 112 9 ++ List.replicate 24 7 ++
    List.replicate 8 8)

/-- The code of distances of blocks that bring none. -/
def fixedDistances : Code := Code.ofLengths (List.replicate 32 5)

/-- The order in which the lengths of the code of lengths come. -/
def lengthOrder : List Nat := [16, 17, 18, 0, 8, 7, 9, 6, 10, 5, 11, 4, 12, 3, 13, 2, 14, 1, 15]

private def readThrees : Nat → BitSource → Option (List Nat × BitSource)
  | 0, s => some ([], s)
  | n + 1, s => do
    let (k, s) ← BitSource.number? 3 s
    let (ks, s) ← readThrees n s
    some (k :: ks, s)

/-- The lengths of codewords, some of them given as repetitions. The first argument bounds their
number, and the lengths so far are in reverse. -/
def readLengths (code : Code) (count : Nat) : Nat → BitSource → List Nat →
    Option (List Nat × BitSource)
  | 0, _, _ => none
  | fuel + 1, s, lengths =>
    if lengths.length = count then some (lengths.reverse, s)
    else if count < lengths.length then none
    else do
      let (symbol, s) ← code.read? s
      if symbol < 16 then readLengths code count fuel s (symbol :: lengths)
      else
        let (bits, least, length) ← match symbol with
          | 16 => lengths.head?.map fun l => (2, 3, l)
          | 17 => some (3, 3, 0)
          | _ => some (7, 11, 0)
        let (n, s) ← BitSource.number? bits s
        readLengths code count fuel s (List.replicate (least + n) length ++ lengths)

/-- The codes that a block brings. -/
def readCodes (s : BitSource) : Option (Code × Code × BitSource) := do
  let (a, s) ← BitSource.number? 5 s
  let (b, s) ← BitSource.number? 5 s
  let (c, s) ← BitSource.number? 4 s
  let literalCount := a + 257
  let distanceCount := b + 1
  if 286 < literalCount || 30 < distanceCount then none
  else
    let (threes, s) ← readThrees (c + 4) s
    let given := lengthOrder.zip threes
    let code := Code.ofLengths ((List.range 19).map fun i =>
      ((given.find? (·.1 == i)).map (·.2)).getD 0)
    if !code.isComplete then none
    else
      let count := literalCount + distanceCount
      let (lengths, s) ← readLengths code count (count + 1) s []
      let literals := Code.ofLengths (lengths.take literalCount)
      let distances := Code.ofLengths (lengths.drop literalCount)
      if lengths[256]? == some 0 || !literals.isUsable || !distances.isUsable then none
      else some (literals, distances, s)

/-- A stored block: two copies of its length, the second one inverted, and its bytes. -/
def readStored (s : BitSource) (out : Bytes) : Option (Bytes × BitSource) :=
  match s.bytes with
  | a :: b :: c :: d :: rest =>
    let length := a.toNat + 256 * b.toNat
    if length + (c.toNat + 256 * d.toNat) != 65535 || rest.length < length then none
    else some ((rest.take length).reverse ++ out, .ofBytes (rest.drop length))
  | _ => none

/-- One block: its output in front of what came before, both in reverse. -/
def readBlock (kind : Nat) (s : BitSource) (out : Bytes) : Option (Bytes × BitSource) :=
  match kind with
  | 0 => readStored s.align out
  | 1 => readSymbols fixedLiterals fixedDistances (s.size + 1) s out
  | 2 => do
    let (literals, distances, s) ← readCodes s
    readSymbols literals distances (s.size + 1) s out
  | _ => none

/-- The blocks up to the last one. The first argument bounds their number. -/
def readBlocks : Nat → BitSource → Bytes → Option (Bytes × BitSource)
  | 0, _, _ => none
  | fuel + 1, s, out => do
    let (last, s) ← s.next?
    let (kind, s) ← BitSource.number? 2 s
    let (out, s) ← readBlock kind s out
    if last then some (out, s) else readBlocks fuel s out

/-- The bytes that blocks hold, and the bytes after the blocks. -/
def inflate? (bs : Bytes) : Option (Bytes × Bytes) := do
  let (out, s) ← readBlocks (8 * bs.length + 1) (.ofBytes bs) []
  some (out.reverse, s.bytes)

/-! Framed data: a header, blocks, and a checksum of what they hold. -/

/-- The checksum of bytes: two sums modulo a prime. -/
def checksum (bs : Bytes) : Nat :=
  let (a, b) := bs.foldl (fun (acc : Nat × Nat) byte =>
    let a := (acc.1 + byte.toNat) % 65521
    (a, (acc.2 + a) % 65521)) (1, 0)
  b * 65536 + a

/-- The byte of a number at a number of bits. -/
def byteAt (n shift : Nat) : UInt8 := UInt8.ofNat (n / Nat.pow 2 shift % 256)

/-- A number in four bytes, the highest first. -/
def fourBytes (n : Nat) : Bytes := [byteAt n 24, byteAt n 16, byteAt n 8, byteAt n 0]

/-- The most bytes in a stored block. -/
def maxStored : Nat := 65535

/-- One stored block. -/
def storedBlock (last : Bool) (bs : Bytes) : Bytes :=
  let n := bs.length
  let m := maxStored - n
  (if last then 1 else 0) :: byteAt n 0 :: byteAt n 8 :: byteAt m 0 :: byteAt m 8 :: bs

/-- Bytes as stored blocks. -/
def storedBlocks (bs : Bytes) : Bytes :=
  if bs.length ≤ maxStored then storedBlock true bs
  else storedBlock false (bs.take maxStored) ++ storedBlocks (bs.drop maxStored)
termination_by bs.length
decreasing_by
  simp only [List.length_drop, maxStored] at *
  omega

/-- Frame bytes, as stored blocks. -/
def frame (bs : Bytes) : Bytes :=
  0x78 :: 0x01 :: storedBlocks bs ++ fourBytes (checksum bs)

/-- The bytes in a frame. The header names the method, a window of at most 32 KiB and no dictionary,
and is a multiple of 31; the checksum must fit. What follows the frame does not count. -/
def unframe? (bs : Bytes) : Option Bytes :=
  match bs with
  | a :: b :: rest =>
    let head := a.toNat * 256 + b.toNat
    if a.toNat % 16 != 8 || 7 < a.toNat / 16 || head % 31 != 0 || b.toNat.testBit 5 then none
    else do
      let (out, after) ← inflate? rest
      if after.take 4 == fourBytes (checksum out) then some out else none
  | _ => none

end CodeAgent.Deflate
