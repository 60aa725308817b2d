import CodeAgent.Text.Utf8

/-! UTF-8: bytes in parts, the bytes of a text, and what stands for bytes that are no text. -/
namespace CodeAgent.Text.Utf8

theorem run_append (p : Pending) (bs more : Bytes) : run p (bs ++ more) =
    ((run p bs).1 ++ (run (run p bs).2 more).1, (run (run p bs).2 more).2) := by
  induction bs generalizing p with
  | nil => rfl
  | cons b bs ih => simp only [List.cons_append, run, ih, List.append_assoc]

/-- The first bytes of characters, by the number of bytes that follow. -/
theorem leadByte_eq_some {b : Nat} {p : Pending} (lead : leadByte b = some p) :
    (0xc2 ≤ b ∧ b ≤ 0xdf ∧ p = .inside 1 0x80 0xbf (b - 0xc0)) ∨
      (b = 0xe0 ∧ p = .inside 2 0xa0 0xbf 0) ∨ (b = 0xed ∧ p = .inside 2 0x80 0x9f 0xd) ∨
      (0xe1 ≤ b ∧ b ≤ 0xef ∧ b ≠ 0xed ∧ p = .inside 2 0x80 0xbf (b - 0xe0)) ∨
      (b = 0xf0 ∧ p = .inside 3 0x90 0xbf 0) ∨ (b = 0xf4 ∧ p = .inside 3 0x80 0x8f 4) ∨
      (0xf1 ≤ b ∧ b ≤ 0xf3 ∧ p = .inside 3 0x80 0xbf (b - 0xf0)) := by
  unfold leadByte at lead
  split at lead
  · next h =>
    cases lead
    exact .inl ⟨h.1, h.2, rfl⟩
  split at lead
  · next h =>
    cases lead
    exact .inr (.inl ⟨h, rfl⟩)
  split at lead
  · next h =>
    cases lead
    exact .inr (.inr (.inl ⟨h, rfl⟩))
  split at lead
  · next other h =>
    cases lead
    exact .inr (.inr (.inr (.inl ⟨h.1, h.2, other, rfl⟩)))
  split at lead
  · next h =>
    cases lead
    exact .inr (.inr (.inr (.inr (.inl ⟨h, rfl⟩))))
  split at lead
  · next h =>
    cases lead
    exact .inr (.inr (.inr (.inr (.inr (.inl ⟨h, rfl⟩)))))
  split at lead
  · next h =>
    cases lead
    exact .inr (.inr (.inr (.inr (.inr (.inr ⟨h.1, h.2, rfl⟩)))))
  · contradiction

private theorem toNat_byte {n : Nat} (small : n < 256) : (UInt8.ofNat n).toNat = n := by
  rw [UInt8.toNat_ofNat', Nat.mod_eq_of_lt small]

theorem run_small {b : UInt8} (small : b.toNat < 0x80) (bs : Bytes) : run .start (b :: bs) =
    ([some (Char.ofNat b.toNat)] ++ (run .start bs).1, (run .start bs).2) := by
  rw [run, step, beginChar, if_pos small]

theorem run_lead {b : UInt8} {p : Pending} (large : 0x80 ≤ b.toNat)
    (lead : leadByte b.toNat = some p) (bs : Bytes) : run .start (b :: bs) = run p bs := by
  rw [run, step, beginChar, if_neg (by omega), lead]
  rfl

theorem run_more {needed low high value : Nat} {b : UInt8} (fits : low ≤ b.toNat ∧ b.toNat ≤ high)
    (bs : Bytes) : run (.inside (needed + 2) low high value) (b :: bs) =
      run (.inside (needed + 1) 0x80 0xbf (value * 64 + (b.toNat - 0x80))) bs := by
  rw [run, step, if_pos fits]
  rfl

theorem run_last {low high value : Nat} {b : UInt8} (fits : low ≤ b.toNat ∧ b.toNat ≤ high)
    (bs : Bytes) : run (.inside 1 low high value) (b :: bs) =
      ([some (Char.ofNat (value * 64 + (b.toNat - 0x80)))] ++ (run .start bs).1,
        (run .start bs).2) := by
  rw [run, step, if_pos fits]
  rfl

private theorem leadByte_two {n : Nat} (low : 0xc2 ≤ n) (high : n ≤ 0xdf) :
    leadByte n = some (.inside 1 0x80 0xbf (n - 0xc0)) := by
  rw [leadByte, if_pos ⟨low, high⟩]

private theorem leadByte_three {v : Nat} (low : 0x7ff < v) (high : v ≤ 0xffff)
    (valid : v < 0xd800 ∨ 0xdfff < v) : ∃ least most,
      leadByte (v / 4096 + 0xe0) = some (.inside 2 least most (v / 4096)) ∧
        least ≤ v / 64 % 64 + 0x80 ∧ v / 64 % 64 + 0x80 ≤ most := by
  obtain first | surrogate | ⟨first, surrogate⟩ :
    v / 4096 = 0 ∨ v / 4096 = 0xd ∨ v / 4096 ≠ 0 ∧ v / 4096 ≠ 0xd := by omega
  · rw [first]
    exact ⟨0xa0, 0xbf, rfl, by omega, by omega⟩
  · rw [surrogate]
    exact ⟨0x80, 0x9f, rfl, by omega, by omega⟩
  · refine ⟨0x80, 0xbf, ?_, by omega, by omega⟩
    rw [leadByte, if_neg (by omega), if_neg (by omega), if_neg (by omega), if_pos (by omega),
      Nat.add_sub_cancel]

private theorem leadByte_four {v : Nat} (low : 0xffff < v) (high : v < 0x110000) : ∃ least most,
    leadByte (v / 262144 + 0xf0) = some (.inside 3 least most (v / 262144)) ∧
      least ≤ v / 4096 % 64 + 0x80 ∧ v / 4096 % 64 + 0x80 ≤ most := by
  obtain first | last | ⟨first, last⟩ :
    v / 262144 = 0 ∨ v / 262144 = 4 ∨ 1 ≤ v / 262144 ∧ v / 262144 ≤ 3 := by omega
  · rw [first]
    exact ⟨0x90, 0xbf, rfl, by omega, by omega⟩
  · rw [last]
    exact ⟨0x80, 0x8f, rfl, by omega, by omega⟩
  · refine ⟨0x80, 0xbf, ?_, by omega, by omega⟩
    rw [leadByte, if_neg (by omega), if_neg (by omega), if_neg (by omega), if_neg (by omega),
      if_neg (by omega), if_neg (by omega), if_pos (by omega), Nat.add_sub_cancel]

/-- A character is read from its own bytes. -/
theorem run_encodeChar (c : Char) : run .start (String.utf8EncodeChar c) = ([some c], .start) := by
  have valid : c.val.toNat < 0xd800 ∨ 0xdfff < c.val.toNat ∧ c.val.toNat < 0x110000 := c.valid
  have same : Char.ofNat c.val.toNat = c := Char.ofNat_toNat c
  rw [String.utf8EncodeChar]
  generalize c.val.toNat = v at valid same
  subst same
  have tail (n : Nat) : (UInt8.ofNat (n % 64 + 0x80)).toNat = n % 64 + 0x80 := toNat_byte (by omega)
  split
  · next h =>
    have b₀ : (UInt8.ofNat v).toNat = v := toNat_byte (by omega)
    rw [run_small (by omega), b₀]
    rfl
  split
  · next low high =>
    have b₀ : (UInt8.ofNat (v / 64 % 32 + 192)).toNat = v / 64 + 0xc0 := by
      rw [toNat_byte (by omega)]
      omega
    rw [run_lead (by omega) (by rw [b₀]; exact leadByte_two (by omega) (by omega)),
      run_last (by rw [tail]; omega), tail]
    have value : (v / 64 + 0xc0 - 0xc0) * 64 + (v % 64 + 0x80 - 0x80) = v := by omega
    rw [value]
    rfl
  split
  · next low high =>
    have b₀ : (UInt8.ofNat (v / 4096 % 16 + 224)).toNat = v / 4096 + 0xe0 := by
      rw [toNat_byte (by omega)]
      omega
    obtain ⟨least, most, lead, fits⟩ := leadByte_three (v := v) (by omega) high (by omega)
    rw [run_lead (by omega) (by rw [b₀]; exact lead), run_more (by rw [tail]; exact fits),
      run_last (by rw [tail]; omega), tail, tail]
    have value : (v / 4096 * 64 + (v / 64 % 64 + 0x80 - 0x80)) * 64 + (v % 64 + 0x80 - 0x80) = v := by
      omega
    rw [value]
    rfl
  · next low =>
    have b₀ : (UInt8.ofNat (v / 262144 % 8 + 240)).toNat = v / 262144 + 0xf0 := by
      rw [toNat_byte (by omega)]
      omega
    obtain ⟨least, most, lead, fits⟩ := leadByte_four (v := v) (by omega) (by omega)
    rw [run_lead (by omega) (by rw [b₀]; exact lead), run_more (by rw [tail]; exact fits),
      run_more (by rw [tail]; omega), run_last (by rw [tail]; omega), tail, tail, tail]
    have value : ((v / 262144 * 64 + (v / 4096 % 64 + 0x80 - 0x80)) * 64 +
        (v / 64 % 64 + 0x80 - 0x80)) * 64 + (v % 64 + 0x80 - 0x80) = v := by
      omega
    rw [value]
    rfl

theorem run_encode (cs : List Char) : run .start (encode cs) = (cs.map some, .start) := by
  induction cs with
  | nil => rfl
  | cons c cs ih =>
    have parts : encode (c :: cs) = String.utf8EncodeChar c ++ encode cs := rfl
    rw [parts, run_append, run_encodeChar, ih]
    rfl

/-- The bytes of a text decode to the text. -/
theorem decode_encode (cs : List Char) : decode (encode cs) = cs := by
  rw [decode, run_encode]
  simp [finish, repair, Function.comp_def]

theorem decode?_encode (cs : List Char) : decode? (encode cs) = some cs := by
  have all (ds : List Char) : (ds.map some).mapM (m := Option) id = some ds := by
    induction ds with
    | nil => rfl
    | cons d ds ih => simp [ih]
  rw [decode?, run_encode]
  simpa [finish] using all cs

/-- No character stands at the start of some bytes, and a part of them is as long a beginning of one as
there is, or a single byte that begins none. -/
structure MaximalInvalid (part rest : Bytes) : Prop where
  filled : part ≠ []
  unreadable : ∀ c, ¬ String.utf8EncodeChar c <+: part ++ rest
  begins : part.length = 1 ∨ ∃ c, part <+: String.utf8EncodeChar c
  longest : ∀ b more c, rest = b :: more → ¬ part ++ [b] <+: String.utf8EncodeChar c

/-- The characters that bytes stand for, with one replacement character for each maximal invalid part. -/
inductive Decoded : Bytes → List Char → Prop where
  | nil : Decoded [] []
  | char (c : Char) {bs cs} : Decoded bs cs → Decoded (String.utf8EncodeChar c ++ bs) (c :: cs)
  | invalid {part bs cs} : MaximalInvalid part bs → Decoded bs cs →
      Decoded (part ++ bs) (replacement :: cs)

/-- The bytes that were read of a character that is not complete. -/
inductive Begun : Pending → Bytes → Prop where
  | lead {b : UInt8} {p} : 0x80 ≤ b.toNat → leadByte b.toNat = some p → Begun p [b]
  | more {needed low high value part} {b : UInt8} : Begun (.inside (needed + 2) low high value) part →
      low ≤ b.toNat ∧ b.toNat ≤ high →
        Begun (.inside (needed + 1) 0x80 0xbf (value * 64 + (b.toNat - 0x80))) (part ++ [b])

namespace Begun

theorem run_eq {p : Pending} {part : Bytes} (begun : Begun p part) : run .start part = ([], p) := by
  induction begun with
  | lead large lead => exact run_lead large lead []
  | more _ fits ih =>
    rw [run_append, ih, run_more fits]
    rfl

theorem length_pos {p : Pending} {part : Bytes} (begun : Begun p part) : part ≠ [] := by
  cases begun <;> simp

/-- A character has at most four bytes. -/
theorem length_le {needed low high value : Nat} {part : Bytes}
    (begun : Begun (.inside needed low high value) part) : needed + part.length ≤ 4 := by
  generalize hp : Pending.inside needed low high value = p at begun
  induction begun generalizing needed low high value with
  | lead large lead =>
    obtain ⟨-, -, rfl⟩ | ⟨-, rfl⟩ | ⟨-, rfl⟩ | ⟨-, -, -, rfl⟩ | ⟨-, rfl⟩ | ⟨-, rfl⟩ | ⟨-, -, rfl⟩ :=
      leadByte_eq_some lead <;> cases hp <;> simp
  | more _ _ ih =>
    cases hp
    have shorter := ih rfl
    rw [List.length_append, List.length_singleton]
    omega

/-- A character that is not complete can go on. -/
theorem inside {p : Pending} {part : Bytes} (begun : Begun p part) :
    ∃ needed low high value, p = .inside (needed + 1) low high value ∧ low ≤ high ∧ high < 256 := by
  cases begun with
  | lead large lead =>
    obtain ⟨-, -, rfl⟩ | ⟨-, rfl⟩ | ⟨-, rfl⟩ | ⟨-, -, -, rfl⟩ | ⟨-, rfl⟩ | ⟨-, rfl⟩ | ⟨-, -, rfl⟩ :=
      leadByte_eq_some lead
    all_goals exact ⟨_, _, _, _, rfl, by omega, by omega⟩
  | more _ _ => exact ⟨_, _, _, _, rfl, by omega, by omega⟩

end Begun

private theorem ofNat_byte {b : UInt8} {n : Nat} (h : b.toNat = n) : UInt8.ofNat n = b := by
  rw [← h, UInt8.ofNat_toNat]

private theorem encodeChar_ofNat {v : Nat} (valid : v.isValidChar) :
    (Char.ofNat v).val.toNat = v := by
  rw [Char.ofNat, dif_pos valid]
  rfl

theorem encodeChar_two {v : Nat} (low : 0x7f < v) (high : v ≤ 0x7ff) {a b : UInt8}
    (ha : a.toNat = v / 64 + 0xc0) (hb : b.toNat = v % 64 + 0x80) :
    String.utf8EncodeChar (Char.ofNat v) = [a, b] := by
  have value := encodeChar_ofNat (v := v) (.inl (by omega))
  rw [String.utf8EncodeChar, value]
  rw [if_neg (by omega), if_pos (by omega), ofNat_byte (b := a) (by omega), ofNat_byte hb]

theorem encodeChar_three {v : Nat} (low : 0x7ff < v) (high : v ≤ 0xffff)
    (valid : v < 0xd800 ∨ 0xdfff < v) {a b c : UInt8} (ha : a.toNat = v / 4096 + 0xe0)
    (hb : b.toNat = v / 64 % 64 + 0x80) (hc : c.toNat = v % 64 + 0x80) :
    String.utf8EncodeChar (Char.ofNat v) = [a, b, c] := by
  have value := encodeChar_ofNat (v := v) (by unfold Nat.isValidChar; omega)
  rw [String.utf8EncodeChar, value]
  rw [if_neg (by omega), if_neg (by omega), if_pos (by omega), ofNat_byte (b := a) (by omega),
    ofNat_byte hb, ofNat_byte hc]

theorem encodeChar_four {v : Nat} (low : 0xffff < v) (high : v < 0x110000) {a b c d : UInt8}
    (ha : a.toNat = v / 262144 + 0xf0) (hb : b.toNat = v / 4096 % 64 + 0x80)
    (hc : c.toNat = v / 64 % 64 + 0x80) (hd : d.toNat = v % 64 + 0x80) :
    String.utf8EncodeChar (Char.ofNat v) = [a, b, c, d] := by
  have value := encodeChar_ofNat (v := v) (.inr (by omega))
  rw [String.utf8EncodeChar, value]
  rw [if_neg (by omega), if_neg (by omega), if_neg (by omega), ofNat_byte (b := a) (by omega),
    ofNat_byte hb, ofNat_byte hc, ofNat_byte hd]

namespace Begun

/-- The last byte makes a character of what was read. -/
theorem complete {low high value : Nat} {part : Bytes} {b : UInt8}
    (begun : Begun (.inside 1 low high value) part) (fits : low ≤ b.toNat ∧ b.toNat ≤ high) :
    part ++ [b] = String.utf8EncodeChar (Char.ofNat (value * 64 + (b.toNat - 0x80))) := by
  cases begun with
  | lead large lead =>
    obtain ⟨low, high, same⟩ | ⟨-, same⟩ | ⟨-, same⟩ | ⟨-, -, -, same⟩ | ⟨-, same⟩ | ⟨-, same⟩ |
      ⟨-, -, same⟩ := leadByte_eq_some lead <;> cases same
    exact (encodeChar_two (by omega) (by omega) (by omega) (by omega)).symm
  | more begun fits₁ =>
    cases begun with
    | lead large lead =>
      obtain ⟨-, -, same⟩ | ⟨_, same⟩ | ⟨_, same⟩ | ⟨_, _, _, same⟩ | ⟨-, same⟩ | ⟨-, same⟩ |
        ⟨-, -, same⟩ := leadByte_eq_some lead <;> cases same
      all_goals exact (encodeChar_three (by omega) (by omega) (by omega) (by omega) (by omega)
        (by omega)).symm
    | more begun fits₂ =>
      cases begun with
      | lead large lead =>
        obtain ⟨-, -, same⟩ | ⟨-, same⟩ | ⟨-, same⟩ | ⟨-, -, -, same⟩ | ⟨_, same⟩ | ⟨_, same⟩ |
          ⟨_, _, same⟩ := leadByte_eq_some lead <;> cases same
        all_goals exact (encodeChar_four (by omega) (by omega) (by omega) (by omega) (by omega)
          (by omega)).symm
      | more begun _ =>
        have filled := List.length_pos_iff.mpr begun.length_pos
        have bound := begun.length_le
        omega

/-- What was read begins a character. -/
theorem prefix_encodeChar {p : Pending} {part : Bytes} (begun : Begun p part) :
    ∃ c, part <+: String.utf8EncodeChar c := by
  obtain ⟨needed, low, high, value, rfl, fits, small⟩ := begun.inside
  have byte : (UInt8.ofNat low).toNat = low := toNat_byte (by omega)
  induction needed generalizing part low high value with
  | zero => exact ⟨_, [UInt8.ofNat low], begun.complete (by omega)⟩
  | succ needed ih =>
    obtain ⟨c, longer⟩ := ih _ _ _ (begun.more (b := UInt8.ofNat low) (by omega)) (by omega)
      (by omega) (toNat_byte (by omega))
    exact ⟨c, (List.prefix_append part _).trans longer⟩

/-- A character that is not complete holds none. -/
theorem not_encodeChar_prefix {p : Pending} {part : Bytes} (begun : Begun p part) (c : Char) :
    ¬ String.utf8EncodeChar c <+: part := by
  rintro ⟨more, rfl⟩
  have none := begun.run_eq
  rw [run_append, run_encodeChar] at none
  simp at none

end Begun

/-- Bytes that are found to be invalid begin no character, and no character begins them. -/
theorem not_prefix_of_run {bs : Bytes} {more : List (Option Char)}
    (found : (run .start bs).1 = none :: more) (c : Char) :
    ¬ bs <+: String.utf8EncodeChar c ∧ ¬ String.utf8EncodeChar c <+: bs := by
  constructor
  · rintro ⟨rest, whole⟩
    have read := run_encodeChar c
    rw [← whole, run_append, found] at read
    simp at read
  · rintro ⟨rest, rfl⟩
    rw [run_append, run_encodeChar] at found
    simp at found

theorem Begun.maximalInvalid {p : Pending} {part rest : Bytes} (begun : Begun p part)
    (stuck : ∀ b more, rest = b :: more → ∀ bs, ∃ cs, (run p (b :: bs)).1 = none :: cs) :
    MaximalInvalid part rest where
  filled := begun.length_pos
  begins := .inr begun.prefix_encodeChar
  longest b more c hrest := by
    obtain ⟨cs, found⟩ := stuck b more hrest []
    have whole : (run .start (part ++ [b])).1 = none :: cs := by
      rw [run_append, begun.run_eq]
      exact found
    exact (not_prefix_of_run whole c).1
  unreadable c := by
    cases rest with
    | nil =>
      rw [List.append_nil]
      exact begun.not_encodeChar_prefix c
    | cons b more =>
      obtain ⟨cs, found⟩ := stuck b more rfl more
      have whole : (run .start (part ++ b :: more)).1 = none :: cs := by
        rw [run_append, begun.run_eq]
        exact found
      exact (not_prefix_of_run whole c).2

/-- What bytes decode to after those that were read of a character. -/
def decodeFrom (p : Pending) (bs : Bytes) : List Char :=
  repair ((run p bs).1 ++ finish (run p bs).2)

theorem decodeFrom_append (p : Pending) (bs more : Bytes) :
    decodeFrom p (bs ++ more) = repair (run p bs).1 ++ decodeFrom (run p bs).2 more := by
  simp [decodeFrom, run_append, repair]

theorem decodeFrom_cons {p q : Pending} {b : UInt8} {bs rest : Bytes} {cs : List (Option Char)}
    (read : run p (b :: bs) = (cs ++ (run q rest).1, (run q rest).2)) :
    decodeFrom p (b :: bs) = repair cs ++ decodeFrom q rest := by
  simp [decodeFrom, read, repair]

theorem run_stuck {needed low high value : Nat} {b : UInt8}
    (misfit : ¬ (low ≤ b.toNat ∧ b.toNat ≤ high)) (bs : Bytes) :
    run (.inside needed low high value) (b :: bs) =
      ([none] ++ (run .start (b :: bs)).1, (run .start (b :: bs)).2) := by
  rw [run, step, if_neg misfit]
  rfl

private theorem run_no_lead {b : UInt8} (large : 0x80 ≤ b.toNat) (lead : leadByte b.toNat = none)
    (bs : Bytes) : run .start (b :: bs) = ([none] ++ (run .start bs).1, (run .start bs).2) := by
  rw [run, step, beginChar, if_neg (by omega), lead]

private theorem decoded_cons {b : UInt8} {bs : Bytes} (next : Decoded bs (decodeFrom .start bs))
    (further : ∀ p, Begun p [b] → Decoded (b :: bs) (decodeFrom p bs)) :
    Decoded (b :: bs) (decodeFrom .start (b :: bs)) := by
  obtain small | large := Nat.lt_or_ge b.toNat 0x80
  · have one : String.utf8EncodeChar (Char.ofNat b.toNat) = [b] := by
      rw [String.utf8EncodeChar, encodeChar_ofNat (.inl (by omega)), if_pos (by omega),
        UInt8.ofNat_toNat]
    rw [decodeFrom_cons (run_small small bs), ← List.singleton_append, ← one]
    exact .char _ next
  · cases lead : leadByte b.toNat with
    | some p =>
      have begun := Begun.lead large lead
      rw [decodeFrom, run_lead large lead]
      exact further p begun
    | none =>
      have found : (run .start [b]).1 = [none] := by rw [run_no_lead large lead]; rfl
      have whole : (run .start ([b] ++ bs)).1 = none :: (run .start bs).1 :=
        congrArg Prod.fst (run_no_lead large lead bs)
      rw [decodeFrom_cons (run_no_lead large lead bs)]
      have invalid : MaximalInvalid [b] bs := {
        filled := by simp
        begins := .inl rfl
        longest := fun b' more c hrest longer => (not_prefix_of_run found c).1
          ((List.prefix_append [b] [b']).trans longer)
        unreadable := fun c => (not_prefix_of_run whole c).2 }
      exact .invalid invalid next

private theorem decoded_from {p : Pending} {part : Bytes}
    (reading : p = .start ∧ part = [] ∨ Begun p part) (bs : Bytes) :
    Decoded (part ++ bs) (decodeFrom p bs) := by
  induction bs generalizing p part with
  | nil =>
    obtain ⟨rfl, rfl⟩ | begun := reading
    · exact .nil
    · obtain ⟨needed, low, high, value, rfl, -⟩ := begun.inside
      exact .invalid (begun.maximalInvalid (by simp)) .nil
  | cons b bs ih =>
    have fresh : Decoded (b :: bs) (decodeFrom .start (b :: bs)) :=
      decoded_cons (ih (.inl ⟨rfl, rfl⟩)) fun p begun => ih (.inr begun)
    obtain ⟨rfl, rfl⟩ | begun := reading
    · exact fresh
    · obtain ⟨needed, low, high, value, rfl, -⟩ := begun.inside
      by_cases fits : low ≤ b.toNat ∧ b.toNat ≤ high
      · have longer : part ++ b :: bs = part ++ [b] ++ bs := by simp
        rw [longer]
        cases needed with
        | zero =>
          rw [begun.complete fits, decodeFrom_cons (run_last fits bs)]
          have rest : Decoded bs (decodeFrom .start bs) := ih (.inl ⟨rfl, rfl⟩)
          generalize Char.ofNat (value * 64 + (b.toNat - 0x80)) = c
          exact rest.char c
        | succ needed =>
          rw [decodeFrom, run_more fits]
          exact ih (.inr (begun.more fits))
      · rw [decodeFrom_cons (run_stuck fits bs)]
        refine .invalid (begun.maximalInvalid ?_) fresh
        rintro b' more same bs'
        cases same
        exact ⟨_, congrArg Prod.fst (run_stuck fits bs')⟩

/-- Decoding reads every character, and replaces every maximal invalid part. -/
theorem decoded_decode (bs : Bytes) : Decoded bs (decode bs) :=
  decoded_from (.inl ⟨rfl, rfl⟩) bs

end CodeAgent.Text.Utf8
