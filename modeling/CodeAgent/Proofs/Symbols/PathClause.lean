import CodeAgent.Proofs.Text.Blank
import CodeAgent.Symbols.Search

/-! The clause on the path in a query. Its mark is looked for in the lower-case form of the query, and the query itself
is cut at the offset of the mark there. So the cut is right as long as nothing before the mark grows in lower case. -/
namespace CodeAgent
open CodeAgent.Text

namespace SymbolQuery

theorem lastOffset?_cons_of_some {part cs : List Char} {n : Nat} (found : lastOffset? part cs = some n) (c : Char) :
    lastOffset? part (c :: cs) = some (n + 1) := by
  rw [lastOffset?, found]

theorem lastOffset?_cons_of_none {part cs : List Char} (missed : lastOffset? part cs = none) (c : Char) :
    lastOffset? part (c :: cs) = if startsWith part (c :: cs) then some 0 else none := by
  rw [lastOffset?, missed]

theorem lastOffset?_eq_none_iff {part cs : List Char} : lastOffset? part cs = none ↔ occursIn part cs = false := by
  induction cs with
  | nil =>
    rw [lastOffset?, occursIn, cutAt?]
    cases part.isEmpty <;> simp
  | cons c cs ih =>
    rw [occursIn] at ih
    rw [occursIn, cutAt?]
    cases later : lastOffset? part cs with
    | some n =>
      have occurs : (cutAt? part cs).isSome = true := by
        rw [← Bool.not_eq_false, ← ih, later]
        exact Option.some_ne_none n
      rw [lastOffset?_cons_of_some later]
      cases dropStart? part (c :: cs) with
      | some rest => simp
      | none => simp [occurs]
    | none =>
      have missed := ih.mp later
      rw [lastOffset?_cons_of_none later, startsWith]
      cases dropStart? part (c :: cs) with
      | some rest => simp
      | none => simp [missed]

/-- The last occurrence in the end of a text is the last one in the text. -/
theorem lastOffset?_append {part cs : List Char} {n : Nat} (found : lastOffset? part cs = some n)
    (before : List Char) : lastOffset? part (before ++ cs) = some (before.length + n) := by
  induction before with
  | nil => rw [List.nil_append, found, List.length_nil, Nat.zero_add]
  | cons c before ih =>
    rw [List.cons_append, lastOffset?_cons_of_some ih, List.length_cons, Nat.add_right_comm]

/-- The mark of a clause, in any case of its letters. -/
def IsMark (mark : List Char) : Prop :=
  ∃ i ∈ ['i', 'I'], ∃ n ∈ ['n', 'N'], mark = [' ', i, n, ' ']

/-- How many characters a text gains in lower case. -/
def growth (cs : List Char) : Nat := cs.count '\u0130'

section clause
variable {t mark f : List Char}

theorem IsMark.lower (isMark : IsMark mark) :
    lowerChars (t ++ (mark ++ f)) = lowerChars t ++ (clauseMark ++ lowerChars f) := by
  obtain ⟨i, hi, n, hn, rfl⟩ := isMark
  have letters : lowerChars [i, n] = ['i', 'n'] := by
    simp only [List.mem_cons, List.not_mem_nil, or_false] at hi hn
    obtain rfl | rfl := hi <;> obtain rfl | rfl := hn <;> rfl
  calc lowerChars (t ++ ' ' :: ([i, n] ++ ' ' :: f))
    _ = lowerChars t ++ ' ' :: (lowerChars [i, n] ++ ' ' :: lowerChars f) := by
      rw [lowerChars_append_space, lowerChars_append_space]
    _ = lowerChars t ++ (clauseMark ++ lowerChars f) := by
      rw [letters]
      rfl

/-- A mark is the last one if no other one starts with its last space or later. -/
theorem lastOffset?_mark {cs : List Char} (last : lastOffset? clauseMark (' ' :: cs) = none) :
    lastOffset? clauseMark (clauseMark ++ cs) = some 0 := by
  have letter : lastOffset? clauseMark ('n' :: ' ' :: cs) = none := by
    rw [lastOffset?_cons_of_none last]
    rfl
  have letters : lastOffset? clauseMark ('i' :: 'n' :: ' ' :: cs) = none := by
    rw [lastOffset?_cons_of_none letter]
    rfl
  change lastOffset? clauseMark (' ' :: 'i' :: 'n' :: ' ' :: cs) = some 0
  rw [lastOffset?_cons_of_none letters]
  rfl

/-- The offset of the mark is off by what the text before it gains. -/
theorem lastOffset?_clause (isMark : IsMark mark) (last : occursIn clauseMark (lowerChars (' ' :: f)) = false) :
    lastOffset? clauseMark (lowerChars (t ++ (mark ++ f))) = some (t.length + growth t) := by
  have spaced : lowerChars (' ' :: f) = ' ' :: lowerChars f := lowerChars_append_space [] f
  rw [spaced, ← lastOffset?_eq_none_iff] at last
  rw [isMark.lower, lastOffset?_append (lastOffset?_mark last), length_lowerChars, Nat.add_zero, growth]

theorem IsMark.length_eq (isMark : IsMark mark) : mark.length = clauseMark.length := by
  obtain ⟨i, -, n, -, rfl⟩ := isMark
  rfl

/-- Of a mark, only the space is cut off as white space. -/
theorem IsMark.trimChars_take_iff (isMark : IsMark mark) (k : Nat) :
    trimChars (t ++ (mark ++ f).take k) = trimChars t ↔ k ≤ 1 := by
  obtain ⟨i, hi, n, -, rfl⟩ := isMark
  constructor
  · intro same
    refine Nat.le_of_not_lt fun more => ?_
    have solid : ink [i] = 1 := by
      simp only [List.mem_cons, List.not_mem_nil, or_false] at hi
      obtain rfl | rfl := hi <;> rfl
    have letter : [' ', i] <+: ([' ', i, n, ' '] ++ f).take k :=
      List.prefix_take_iff.mpr ⟨⟨[n, ' '] ++ f, rfl⟩, more⟩
    have lost := congrArg ink same
    rw [ink_trimChars, ink_trimChars, ink_append] at lost
    have some_ink := ink_le_of_prefix letter
    rw [ink_cons, solid] at some_ink
    omega
  · intro few
    obtain rfl | rfl := Nat.le_one_iff_eq_zero_or_eq_one.mp few
    · rw [List.take_zero, List.append_nil]
    · exact trimBy_concat_of_pos rfl t

/-- A first character that is not white space is missed. -/
theorem lower_trim_tail_iff :
    lowerChars (trimChars f.tail) = lowerChars (trimChars f) ↔ ∀ c ∈ f.head?, isBlank c = true := by
  cases f with
  | nil => simp
  | cons c f =>
    rw [List.tail_cons]
    constructor
    · rintro same d ⟨⟩
      by_contra other
      have solid : isBlank c = false := by simpa using other
      have shorter : (trimChars f).Sublist (f.reverse.dropWhile isBlank).reverse := (trimBy_suffix f).sublist
      have lost := congrArg List.length same
      rw [trimChars, trimChars, trimBy_cons_of_neg solid] at lost
      rw [length_lowerChars, length_lowerChars, List.length_cons, List.count_cons] at lost
      have fewer := shorter.length_le
      have fewer_grown := shorter.count_le '\u0130'
      rw [trimChars] at fewer fewer_grown
      omega
    · intro blank
      rw [trimChars, trimChars, trimBy_cons_of_pos (blank c rfl)]

end clause

theorem containsText_lower (s : String) :
    containsText (lower s) " in " = occursIn clauseMark (lowerChars s.toList) := by
  rw [containsText, lower, clauseMark]
  simp

theorem ofText_of_mark {query : String} {n : Nat}
    (found : lastOffset? clauseMark (lowerChars query.toList) = some n) :
    ofText query = { text := String.ofList (trimChars (query.toList.take n)), within := some (String.ofList (lowerChars
      (trimChars (query.toList.drop (n + clauseMark.length))))) } := by
  rw [ofText, found]

/-- A query without the mark of a clause is all text. In a query with a mark, the text and the piece of the path are
cut apart as many characters too late as the text gains in lower case. The cut is harmless just if there is no such
character, or one, and white space or nothing after the mark. -/
theorem clause_split_right_iff (query t mark f : String) :
    (containsText (lower query) " in " = false → ofText query = { text := trim query }) ∧
      (IsMark mark.toList → containsText (lower (" " ++ f)) " in " = false →
        ofText (t ++ mark ++ f) = {
          text := trim (String.ofList (t.toList ++ (mark ++ f).toList.take (growth t.toList)))
          within := some (lower (trim (String.ofList (f.toList.drop (growth t.toList))))) } ∧
        (ofText (t ++ mark ++ f) = { text := trim t, within := some (lower (trim f)) } ↔
          growth t.toList = 0 ∨ growth t.toList = 1 ∧ ∀ c ∈ f.toList.head?, isBlank c = true)) := by
  constructor
  · intro none
    rw [containsText_lower] at none
    rw [ofText, lastOffset?_eq_none_iff.mpr none]
  · intro isMark last
    have whole : (t ++ mark ++ f).toList = t.toList ++ (mark.toList ++ f.toList) := by
      simp only [String.toList_append, List.append_assoc]
    have found : lastOffset? clauseMark (lowerChars (t ++ mark ++ f).toList) =
        some (t.toList.length + growth t.toList) := by
      rw [whole]
      rw [containsText_lower, String.toList_append] at last
      exact lastOffset?_clause isMark last
    have made : ofText (t ++ mark ++ f) = {
        text := trim (String.ofList (t.toList ++ (mark ++ f).toList.take (growth t.toList)))
        within := some (lower (trim (String.ofList (f.toList.drop (growth t.toList))))) } := by
      have pieces : (t.toList.length + growth t.toList + clauseMark.length) =
          t.toList.length + (mark.toList.length + growth t.toList) := by
        rw [isMark.length_eq, Nat.add_assoc, Nat.add_comm (growth _)]
      rw [ofText_of_mark found, whole, pieces, List.take_length_add_append, List.drop_length_add_append,
        List.drop_length_add_append]
      simp only [trim, lower, String.toList_ofList, String.toList_append]
    refine ⟨made, ?_⟩
    rw [made, SymbolQuery.mk.injEq, Option.some.injEq]
    simp only [trim, lower, String.toList_ofList, String.toList_append, String.ofList_inj]
    rw [isMark.trimChars_take_iff]
    generalize growth t.toList = k
    match k with
    | 0 => simp
    | 1 => simpa using lower_trim_tail_iff
    | k + 2 => simp

/-- The last mark counts, in any case. -/
theorem clause_split_right_at_last_mark :
    containsText (lower "save") " in " = false ∧ ofText "save" = { text := "save" } ∧
      IsMark " IN ".toList ∧ containsText (lower (" " ++ "Utils ")) " in " = false ∧
      growth "join in path".toList = 0 ∧
      ofText ("join in path" ++ " IN " ++ "Utils ") = { text := "join in path", within := some "utils" } := by
  have none : containsText (lower "save") " in " = false := by decide +kernel
  have last : containsText (lower (" " ++ "Utils ")) " in " = false := by decide +kernel
  have isMark : IsMark " IN ".toList := ⟨'I', by decide, 'N', by decide, rfl⟩
  have plain : growth "join in path".toList = 0 := by decide +kernel
  obtain ⟨whole, split⟩ := clause_split_right_iff "save" "join in path" " IN " "Utils "
  refine ⟨none, (whole none).trans (by decide +kernel), isMark, last, plain, ?_⟩
  exact ((split isMark last).2.mpr (.inl plain)).trans (by decide +kernel)

/-- A dotted capital I before the mark makes the piece of the path lose its first character. -/
theorem clause_cut_too_late :
    IsMark " in ".toList ∧ containsText (lower (" " ++ "store")) " in " = false ∧
      ofText ("\u0130" ++ " in " ++ "store") = { text := "\u0130", within := some "tore" } ∧
      ofText ("\u0130" ++ " in " ++ "store") ≠ { text := trim "\u0130", within := some (lower (trim "store")) } := by
  exact ⟨⟨'i', by decide, 'n', by decide, rfl⟩, by decide +kernel, by decide +kernel, by decide +kernel⟩

end SymbolQuery
end CodeAgent
