import Mathlib.Data.List.Induction
import Mathlib.Tactic.Ring
import CodeAgent.Decimal.Digits

/-! The digits of a number have its value, so different numbers have different digits. -/
namespace CodeAgent.Decimal
open CodeAgent.Text

/-- A digit below ten in ASCII. -/
def IsAsciiDigit (c : Char) : Prop := ∃ d < 10, c = digitChar d

theorem digitValue?_digitChar {d : Nat} (small : d < 10) : digitValue? (digitChar d) = some d :=
  (by decide : ∀ d < 10, digitValue? (digitChar d) = some d) d small

@[simp]
theorem digitsValue_nil : digitsValue [] = 0 := rfl

theorem digitsValue_concat (cs : List Char) (c : Char) :
    digitsValue (cs ++ [c]) = 10 * digitsValue cs + (digitValue? c).getD 0 := by
  simp [digitsValue]

theorem digitsValue_append (cs ds : List Char) :
    digitsValue (cs ++ ds) = digitsValue cs * 10 ^ ds.length + digitsValue ds := by
  induction ds using List.reverseRecOn with
  | nil => simp
  | append_singleton ds d ih =>
    rw [← List.append_assoc, digitsValue_concat, digitsValue_concat, ih, List.length_append,
      List.length_singleton, Nat.pow_succ]
    ring

@[simp]
theorem digitsValue_zeros (n : Nat) : digitsValue (List.replicate n '0') = 0 := by
  have zero : (digitValue? '0').getD 0 = 0 := by decide
  induction n with
  | zero => rfl
  | succ n ih => rw [List.replicate_succ', digitsValue_concat, ih, zero]

theorem digitsValue_natDigits (n : Nat) : digitsValue (natDigits n) = n := by
  fun_induction natDigits n with
  | case1 n small => simp [digitsValue, digitValue?_digitChar small]
  | case2 n large ih =>
    have last : n % 10 < 10 := by omega
    rw [digitsValue_concat, ih, digitValue?_digitChar last, Option.getD_some]
    omega

theorem digitValue?_lt {c : Char} {d : Nat} (digit : digitValue? c = some d) : d < 10 := by
  unfold digitValue? at digit
  split at digit
  · split at digit
    · next ascii =>
      cases digit
      have nine : '9'.toNat = 57 := rfl
      have := (Char.isDigit_iff_toNat.mp ascii).2
      omega
    · cases digit
  · obtain ⟨z, found, rfl⟩ := Option.map_eq_some_iff.mp digit
    have within := List.find?_some found
    rw [Bool.and_eq_true, decide_eq_true_iff, decide_eq_true_iff] at within
    omega

/-- So many digits write a number below that power of ten. -/
theorem digitsValue_lt (cs : List Char) : digitsValue cs < 10 ^ cs.length := by
  induction cs using List.reverseRecOn with
  | nil => exact Nat.one_pos
  | append_singleton cs c ih =>
    have last : (digitValue? c).getD 0 < 10 := by
      cases digit : digitValue? c with
      | none => exact Nat.zero_lt_succ _
      | some d => exact digitValue?_lt digit
    rw [digitsValue_concat, List.length_append, List.length_singleton, Nat.pow_succ]
    omega

/-- A number below a power of ten has at most so many digits. -/
theorem length_natDigits_le {n k : Nat} (some_digit : 0 < k) (bound : n < 10 ^ k) : (natDigits n).length ≤ k := by
  fun_induction natDigits n generalizing k with
  | case1 n small => exact some_digit
  | case2 n large ih =>
    obtain ⟨k, rfl⟩ := Nat.exists_eq_add_one_of_ne_zero (Nat.ne_of_gt some_digit)
    rw [Nat.pow_succ] at bound
    have more : 0 < k := by
      by_contra none
      obtain rfl : k = 0 := by omega
      omega
    rw [List.length_append, List.length_singleton]
    exact Nat.succ_le_succ (ih more (by omega))

theorem natDigits_injective {m n : Nat} (same : natDigits m = natDigits n) : m = n := by
  rw [← digitsValue_natDigits m, same, digitsValue_natDigits]

theorem natDigits_ascii (n : Nat) : ∀ c ∈ natDigits n, IsAsciiDigit c := by
  fun_induction natDigits n with
  | case1 n small => simpa using ⟨n, small, rfl⟩
  | case2 n large ih =>
    intro c hc
    obtain hc | hc := List.mem_append.mp hc
    · exact ih c hc
    · exact ⟨n % 10, by omega, by simpa using hc⟩

theorem natDigits_ne_nil (n : Nat) : natDigits n ≠ [] := by
  rw [natDigits]
  split <;> simp

/-- The first digit is zero only for zero itself. -/
theorem natDigits_head {n : Nat} (positive : 0 < n) : (natDigits n).head? ≠ some '0' := by
  fun_induction natDigits n with
  | case1 n small =>
    have digits : ∀ d < 10, 0 < d → digitChar d ≠ '0' := by decide
    simpa using digits n small positive
  | case2 n large ih =>
    obtain ⟨c, cs, first⟩ := List.exists_cons_of_ne_nil (natDigits_ne_nil (n / 10))
    rw [first] at ih ⊢
    exact ih (by omega)

theorem natDigits_lead (n : Nat) : natDigits n = ['0'] ∨ (natDigits n).head? ≠ some '0' := by
  obtain rfl | positive := Nat.eq_zero_or_pos n
  · rw [natDigits, if_pos (by decide)]
    exact .inl rfl
  · exact .inr (natDigits_head positive)

theorem IsAsciiDigit.ne {c d : Char} (digit : IsAsciiDigit c) (other : ∀ n < 10, digitChar n ≠ d) :
    c ≠ d := by
  obtain ⟨n, small, rfl⟩ := digit
  exact other n small

theorem intDigits_injective {m n : Int} (same : intDigits m = intDigits n) : m = n := by
  have unsigned (k : Nat) (cs : List Char) : natDigits k ≠ '-' :: cs := by
    intro h
    have digit := natDigits_ascii k '-' (h ▸ List.mem_cons_self)
    exact digit.ne (by decide) rfl
  cases m with
  | ofNat m =>
    cases n with
    | ofNat n => rw [natDigits_injective same]
    | negSucc n => exact absurd same (unsigned _ _)
  | negSucc m =>
    cases n with
    | ofNat n => exact absurd same.symm (unsigned _ _)
    | negSucc n =>
      have digits := natDigits_injective (List.cons.inj same).2
      rw [Nat.succ.inj digits]

end CodeAgent.Decimal
