import CodeAgent.Deflate

/-! What is framed is read back. A frame holds stored blocks, so that reading it takes each block off
the front, and the checksum that follows the last block is that of the bytes read. -/
namespace CodeAgent.Deflate
open CodeAgent.Text

theorem byteAt_toNat (n shift : Nat) : (byteAt n shift).toNat = n / Nat.pow 2 shift % 256 :=
  UInt8.toNat_ofNat_of_lt' (Nat.mod_lt _ (by decide))

/-- Two bytes, the lowest first, give back a number that fits. -/
theorem byteAt_pair {n : Nat} (fits : n ≤ maxStored) :
    (byteAt n 0).toNat + 256 * (byteAt n 8).toNat = n := by
  have one : Nat.pow 2 0 = 1 := rfl
  have byte : Nat.pow 2 8 = 256 := rfl
  rw [byteAt_toNat, byteAt_toNat, one, byte]
  simp only [maxStored] at fits
  omega

/-- The five bytes before the content say its length, and it is taken off the front. -/
theorem readStored_block {bs : Bytes} (fits : bs.length ≤ maxStored) (bits : List Bool)
    (tail out : Bytes) :
    readStored (BitSource.align ⟨bits, byteAt bs.length 0 :: byteAt bs.length 8 ::
        byteAt (maxStored - bs.length) 0 :: byteAt (maxStored - bs.length) 8 :: (bs ++ tail)⟩) out =
      some (bs.reverse ++ out, .ofBytes tail) := by
  have length := byteAt_pair fits
  have inverted := byteAt_pair (Nat.sub_le maxStored bs.length)
  have sum : bs.length + (maxStored - bs.length) = 65535 := by simp only [maxStored] at *; omega
  simp [readStored, BitSource.align, length, inverted, sum]

/-- A stored block in front of other bytes is read, and reading goes on unless it was the last. -/
theorem readBlocks_storedBlock {bs : Bytes} (fits : bs.length ≤ maxStored) (last : Bool)
    (fuel : Nat) (tail out : Bytes) :
    readBlocks (fuel + 1) (.ofBytes (storedBlock last bs ++ tail)) out =
      if last then some (bs.reverse ++ out, .ofBytes tail)
      else readBlocks fuel (.ofBytes tail) (bs.reverse ++ out) := by
  have flag (b : Bool) : BitSource.bitsOf (if b then 1 else 0) = b :: List.replicate 7 false := by
    cases b <;> decide
  simp [readBlocks, storedBlock, BitSource.ofBytes, BitSource.next?, flag, BitSource.number?,
    readBlock, readStored_block fits, List.replicate]

/-- Stored blocks are read back, and what follows them is left. -/
theorem readBlocks_storedBlocks (bs : Bytes) {fuel : Nat} (enough : (storedBlocks bs).length < fuel)
    (tail out : Bytes) :
    readBlocks fuel (.ofBytes (storedBlocks bs ++ tail)) out =
      some (bs.reverse ++ out, .ofBytes tail) := by
  induction bs using storedBlocks.induct generalizing fuel out with
  | case1 bs fits =>
    rw [storedBlocks, if_pos fits] at enough ⊢
    obtain ⟨fuel, rfl⟩ := Nat.exists_eq_add_of_lt enough
    rw [readBlocks_storedBlock fits]
    rfl
  | case2 bs large ih =>
    rw [storedBlocks, if_neg large] at enough ⊢
    obtain ⟨fuel, rfl⟩ : ∃ n, fuel = n + 1 := ⟨fuel - 1, by omega⟩
    have fits : (bs.take maxStored).length ≤ maxStored := List.length_take_le ..
    have shorter : (storedBlocks (bs.drop maxStored)).length < fuel := by
      simp only [List.length_append, storedBlock, List.length_cons] at enough
      omega
    rw [List.append_assoc, readBlocks_storedBlock fits, if_neg (by decide), ih shorter,
      ← List.append_assoc, ← List.reverse_append, List.take_append_drop]

/-- The bytes of a frame are those that were framed. -/
theorem unframe?_frame (bs : Bytes) : unframe? (frame bs) = some bs := by
  have blocks : inflate? (storedBlocks bs ++ fourBytes (checksum bs)) =
      some (bs, fourBytes (checksum bs)) := by
    have enough : (storedBlocks bs).length <
        8 * (storedBlocks bs ++ fourBytes (checksum bs)).length + 1 := by
      rw [List.length_append]
      omega
    rw [inflate?, readBlocks_storedBlocks bs enough]
    simp [BitSource.ofBytes]
  have sum : (fourBytes (checksum bs)).take 4 = fourBytes (checksum bs) := rfl
  have noDictionary : Nat.testBit 1 5 = false := by decide
  simp [unframe?, frame, blocks, sum, noDictionary]

end CodeAgent.Deflate
