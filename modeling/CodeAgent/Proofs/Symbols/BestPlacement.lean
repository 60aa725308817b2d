import Mathlib.Data.List.Forall2
import Mathlib.Data.List.Perm.Subperm
import CodeAgent.Symbols.Fuzzy

/-! The match of a pattern in a text: there is one just if the pattern is a subsequence of the text, and no other
placement of the pattern counts more. Its positions are those of the lower-case form of the text, which are positions of
the text itself just as far as no character before them grows. -/
namespace CodeAgent.Symbols
open CodeAgent.Text

/-- The characters of a pattern stand in order at positions of a text. -/
structure Places (pattern text : List Char) (positions : List Nat) : Prop where
  increasing : positions.Pairwise (· < ·)
  chars : positions.map (text[·]?) = pattern.map some

/-- What a character of a pattern counts at a position: ten, and more at the start of the text (the first character
most), after a separator, at an upper-case letter after a lower-case one, and at any upper-case letter. -/
def countAt (text : List Char) (isFirst : Bool) (i : Nat) : Int :=
  10 + (if isFirst = true ∧ i = 0 then 15 else 0) +
    (if i = 0 ∨ (text[i - 1]?).any isSeparator then 20
      else if (text[i - 1]?).any isLower ∧ (text[i]?).any isUpper then 15 else 0) +
    if (text[i]?).any isUpper then 5 else 0

/-- What the characters of a pattern count together. -/
def countOf (text : List Char) : List Nat → Int
  | [] => 0
  | i :: is => is.foldl (fun count j => count + countAt text false j) (countAt text true i)

theorem countOf_concat (text : List Char) (positions : List Nat) (i : Nat) :
    countOf text (positions ++ [i]) = countOf text positions + countAt text positions.isEmpty i := by
  cases positions with
  | nil => simp [countOf]
  | cons j js => simp [countOf, List.foldl_append]

/-- The character before a position. -/
def charBefore (text : List Char) : Nat → Option Char
  | 0 => none
  | i + 1 => text[i]?

theorem bonus_eq_countAt {text : List Char} {i : Nat} {c : Char} (char : text[i]? = some c) (isFirst : Bool) :
    bonus isFirst (charBefore text i) c = countAt text isFirst i := by
  cases i with
  | zero => cases isFirst <;> simp [bonus, charBefore, countAt, char]
  | succ i =>
    obtain ⟨inside, -⟩ := List.getElem?_eq_some_iff.mp char
    have before : text[i]? = some text[i] := List.getElem?_eq_getElem (Nat.lt_of_succ_lt inside)
    simp [bonus, charBefore, countAt, char, before]

/-- The choice among some placements counts as much as any of them; there is none just if there are none. -/
def Best (text : List Char) (choices : List Nat → Prop) : Option Placement → Prop
  | none => ∀ positions, ¬ choices positions
  | some a => choices a.reversed.reverse ∧ countOf text a.reversed.reverse = a.score ∧
      ∀ positions, choices positions → countOf text positions ≤ a.score

namespace Best
variable {text : List Char} {choices others : List Nat → Prop}

theorem congr {a : Option Placement} (best : Best text choices a)
    (same : ∀ positions, choices positions ↔ others positions) : Best text others a := by
  obtain rfl : choices = others := funext fun positions => propext (same positions)
  exact best

theorem isSome_iff {a : Option Placement} (best : Best text choices a) :
    a.isSome ↔ ∃ positions, choices positions := by
  cases a with
  | none => exact ⟨nofun, fun ⟨positions, chosen⟩ => absurd chosen (best positions)⟩
  | some a => exact ⟨fun _ => ⟨_, best.1⟩, fun _ => rfl⟩

/-- Of the best among two kinds of placements, the better one is the best among both. -/
theorem better {a b : Option Placement} (first : Best text choices a) (second : Best text others b) :
    Best text (fun positions => choices positions ∨ others positions) (Symbols.better a b) := by
  match a, b with
  | none, none => exact fun positions chosen => chosen.elim (first positions) (second positions)
  | none, some b =>
    obtain ⟨chosen, count, most⟩ := second
    exact ⟨.inr chosen, count, fun positions either => either.elim (absurd · (first positions)) (most positions)⟩
  | some a, none =>
    obtain ⟨chosen, count, most⟩ := first
    exact ⟨.inl chosen, count, fun positions either => either.elim (most positions) (absurd · (second positions))⟩
  | some a, some b =>
    obtain ⟨chosen, count, most⟩ := first
    obtain ⟨chosen', count', most'⟩ := second
    rw [Symbols.better]
    split
    · next less =>
      refine ⟨.inr chosen', count', fun positions either => either.elim (fun old => ?_) (most' positions)⟩
      exact Int.le_trans (most positions old) (Int.le_of_lt less)
    · next less =>
      refine ⟨.inl chosen, count, fun positions either => either.elim (most positions) fun new => ?_⟩
      exact Int.le_trans (most' positions new) (Int.not_lt.mp less)

/-- One more position adds the same to all placements, as all are empty or none is. -/
theorem concat {a : Option Placement} {isFirst : Bool} (best : Best text choices a)
    (first : ∀ positions, choices positions → positions.isEmpty = isFirst) (i : Nat) :
    Best text (fun positions => ∃ before, positions = before ++ [i] ∧ choices before)
      (a.map fun d => { score := d.score + countAt text isFirst i, reversed := i :: d.reversed }) := by
  cases a with
  | none =>
    rintro positions ⟨before, -, chosen⟩
    exact best before chosen
  | some d =>
    obtain ⟨chosen, count, most⟩ := best
    refine ⟨⟨d.reversed.reverse, List.reverse_cons, chosen⟩, ?_, ?_⟩
    · rw [List.reverse_cons, countOf_concat, count, first _ chosen]
    · rintro positions ⟨before, rfl, chosen'⟩
      rw [countOf_concat, first before chosen']
      exact Int.add_le_add_right (most before chosen') _

end Best

/-- The placements of a pattern before a position. -/
def PlacesBefore (pattern text : List Char) (k : Nat) (positions : List Nat) : Prop :=
  Places pattern text positions ∧ ∀ i ∈ positions, i < k

theorem Places.length_eq {pattern text : List Char} {positions : List Nat} (places : Places pattern text positions) :
    positions.length = pattern.length := by
  simpa using congrArg List.length places.chars

theorem Places.isEmpty_eq {pattern text : List Char} {positions : List Nat} (places : Places pattern text positions) :
    positions.isEmpty = pattern.isEmpty := by
  have same := places.length_eq
  cases positions <;> cases pattern <;> simp_all

theorem Places.lt_length {pattern text : List Char} {positions : List Nat} (places : Places pattern text positions)
    {i : Nat} (mem : i ∈ positions) : i < text.length := by
  have char : text[i]? ∈ positions.map (text[·]?) := List.mem_map_of_mem mem
  rw [places.chars] at char
  obtain ⟨c, -, found⟩ := List.mem_map.mp char
  exact (List.getElem?_eq_some_iff.mp found.symm).1

theorem placesBefore_nil_iff {text : List Char} {k : Nat} {positions : List Nat} :
    PlacesBefore [] text k positions ↔ positions = [] := by
  constructor
  · exact fun ⟨places, _⟩ => List.eq_nil_of_length_eq_zero places.length_eq
  · rintro rfl
    exact ⟨⟨.nil, rfl⟩, nofun⟩

theorem not_placesBefore_zero {pattern text : List Char} {p : Char} (positions : List Nat) :
    ¬ PlacesBefore (pattern ++ [p]) text 0 positions := by
  rintro ⟨places, none⟩
  obtain rfl : positions = [] := List.eq_nil_iff_forall_not_mem.mpr fun i mem => Nat.not_lt_zero i (none i mem)
  simpa using places.length_eq

/-- The last character of a pattern stands before a position, or just there after the others. -/
theorem placesBefore_succ_iff {pattern text : List Char} {p : Char} {k : Nat} {positions : List Nat} :
    PlacesBefore (pattern ++ [p]) text (k + 1) positions ↔ PlacesBefore (pattern ++ [p]) text k positions ∨
      ∃ before, positions = before ++ [k] ∧ text[k]? = some p ∧ PlacesBefore pattern text k before := by
  constructor
  · rintro ⟨places, below⟩
    obtain rfl | ⟨before, i, rfl⟩ := List.eq_nil_or_concat positions
    · simpa using places.length_eq
    obtain ⟨increasing, chars⟩ := places
    rw [List.concat_eq_append, List.map_append, List.map_append] at chars
    obtain ⟨first, last⟩ := List.append_inj' chars rfl
    rw [List.concat_eq_append] at increasing below ⊢
    obtain ⟨increasing', -, less⟩ := List.pairwise_append.mp increasing
    have less : ∀ j ∈ before, j < i := fun j mem => less j mem i (List.mem_singleton_self i)
    obtain same | smaller := Nat.eq_or_lt_of_le (Nat.le_of_lt_succ (below i (by simp)))
    · subst same
      exact .inr ⟨before, rfl, (List.cons.inj last).1, ⟨increasing', first⟩, less⟩
    · refine .inl ⟨⟨increasing, by simp [first, List.cons.inj last]⟩, fun j mem => ?_⟩
      obtain mem | mem := List.mem_append.mp mem
      · exact Nat.lt_trans (less j mem) smaller
      · exact List.mem_singleton.mp mem ▸ smaller
  · rintro (⟨places, below⟩ | ⟨before, rfl, char, ⟨increasing, chars⟩, below⟩)
    · exact ⟨places, fun i mem => Nat.lt_succ_of_lt (below i mem)⟩
    · refine ⟨⟨?_, by simp [chars, char]⟩, ?_⟩
      · refine List.pairwise_append.mpr ⟨increasing, List.pairwise_singleton _ _, fun i mem j last => ?_⟩
        exact List.mem_singleton.mp last ▸ below i mem
      · exact List.forall_mem_append.mpr ⟨fun i mem => Nat.lt_succ_of_lt (below i mem), by simp⟩

section rows
variable {folded text : List Char} {done : List Char} {p : Char}

/-- A row from some position on holds the best placements of a pattern before each position. -/
def BestFrom (folded text pattern : List Char) (k : Nat) (row : List (Option Placement)) : Prop :=
  ∀ i a, row[i]? = some a → Best text (PlacesBefore pattern folded (k + i)) a

theorem BestFrom.head {k : Nat} {a : Option Placement} {row : List (Option Placement)}
    (best : BestFrom folded text done k (a :: row)) : Best text (PlacesBefore done folded k) a :=
  best 0 a rfl

theorem BestFrom.tail {k : Nat} {a : Option Placement} {row : List (Option Placement)}
    (best : BestFrom folded text done k (a :: row)) : BestFrom folded text done (k + 1) row := by
  intro i b found
  rw [Nat.add_right_comm]
  exact best (i + 1) b found

theorem BestFrom.cons {k : Nat} {a : Option Placement} {row : List (Option Placement)}
    (head : Best text (PlacesBefore done folded k) a) (tail : BestFrom folded text done (k + 1) row) :
    BestFrom folded text done k (a :: row) := by
  intro i b found
  cases i with
  | zero => exact Option.some.inj found ▸ head
  | succ i =>
    rw [← Nat.add_assoc, Nat.add_right_comm]
    exact tail i b found

/-- What is the best before a position and what comes of placing the new character there make the best before the
next position. -/
theorem best_succ {k : Nat} {f c : Char} {left diagonal : Option Placement} (foldedChar : folded[k]? = some f)
    (char : text[k]? = some c) (kept : Best text (PlacesBefore (done ++ [p]) folded k) left)
    (before : Best text (PlacesBefore done folded k) diagonal) :
    Best text (PlacesBefore (done ++ [p]) folded (k + 1)) (better left (if p == f then
      diagonal.map fun d => { score := d.score + bonus done.isEmpty (charBefore text k) c, reversed := k :: d.reversed }
      else none)) := by
  have placed := before.concat (fun _ places => places.1.isEmpty_eq) k
  rw [← bonus_eq_countAt char] at placed
  split
  · next same =>
    refine (kept.better placed).congr fun positions => ?_
    rw [placesBefore_succ_iff, foldedChar, beq_iff_eq.mp same]
    simp
  · next other =>
    have none : Best text (fun _ => False) none := fun _ => id
    refine (kept.better none).congr fun positions => ?_
    have apart : f ≠ p := fun same => other (beq_iff_eq.mpr same.symm)
    rw [placesBefore_succ_iff, foldedChar]
    simp [apart]

theorem placeNext_best {rest : List (Char × Char)} {k : Nat} {row : List (Option Placement)}
    {left : Option Placement} (there : (folded.zip text).drop k = rest) (full : row.length = rest.length + 1)
    (best : BestFrom folded text done k row) (kept : Best text (PlacesBefore (done ++ [p]) folded k) left) :
    (placeNext done.isEmpty p k (charBefore text k) rest row left).length = rest.length + 1 ∧
      BestFrom folded text (done ++ [p]) k (placeNext done.isEmpty p k (charBefore text k) rest row left) := by
  have alone : BestFrom folded text (done ++ [p]) k [left] := .cons kept fun _ _ found => by simp at found
  induction rest generalizing k row left with
  | nil => exact ⟨by simp [placeNext], by simpa [placeNext] using alone⟩
  | cons pair rest ih =>
    obtain ⟨f, c⟩ := pair
    obtain ⟨diagonal, row, rfl⟩ := List.exists_cons_of_length_eq_add_one full
    have head : (folded.zip text)[k]? = some (f, c) := by
      rw [← List.head?_drop, there, List.head?_cons]
    obtain ⟨foldedChar, char⟩ := List.getElem?_zip_eq_some.mp head
    have there' : (folded.zip text).drop (k + 1) = rest := by
      rw [← List.tail_drop, there, List.tail_cons]
    have next := best_succ (p := p) foldedChar char kept best.head
    obtain ⟨length, further⟩ :=
      ih there' (Nat.succ.inj full) best.tail next (.cons next fun _ _ found => by simp at found)
    rw [charBefore, char] at length further
    rw [placeNext]
    exact ⟨congrArg (· + 1) length, .cons kept further⟩

theorem placeAll_best (ps : List Char) {row : List (Option Placement)}
    (full : row.length = (folded.zip text).length + 1) (best : BestFrom folded text done 0 row) :
    (placeAll (folded.zip text) done.isEmpty ps row).length = (folded.zip text).length + 1 ∧
      BestFrom folded text (done ++ ps) 0 (placeAll (folded.zip text) done.isEmpty ps row) := by
  induction ps generalizing done row with
  | nil =>
    rw [List.append_nil]
    exact ⟨full, best⟩
  | cons p ps ih =>
    have nowhere : Best text (PlacesBefore (done ++ [p]) folded 0) none := not_placesBefore_zero
    obtain ⟨length, next⟩ := placeNext_best List.drop_zero full best nowhere
    have further := ih length next
    rw [List.append_assoc, List.isEmpty_eq_false_iff.mpr (by simp)] at further
    rwa [placeAll]

end rows

/-- The best placement is the last one in the last row. -/
theorem placeAll_getLast {folded text : List Char} (same : folded.length = text.length) (ps : List Char) :
    Best text (Places ps folded) ((placeAll (folded.zip text) true ps
      (List.replicate (folded.length + 1) (some {}))).getLast?.bind id) := by
  have width : (folded.zip text).length = folded.length := by simp [same]
  have start : BestFrom folded text [] 0 (List.replicate (folded.length + 1) (some {})) := by
    intro i a found
    obtain rfl := List.eq_of_mem_replicate (List.mem_of_getElem? found)
    refine ⟨placesBefore_nil_iff.mpr rfl, rfl, fun positions places => ?_⟩
    obtain rfl := placesBefore_nil_iff.mp places
    exact Int.le_refl 0
  obtain ⟨length, best⟩ := placeAll_best ps (by simp [width]) start
  rw [List.isEmpty_nil] at length best
  generalize placeAll (folded.zip text) true ps (List.replicate (folded.length + 1) (some {})) = row at length best
  have last : row[folded.length]? = some row[folded.length] := List.getElem?_eq_getElem (by omega)
  rw [List.getLast?_eq_getElem?, length, width, Nat.add_sub_cancel, last, Option.bind_some, id]
  refine (best _ _ last).congr fun positions => ?_
  rw [Nat.zero_add]
  exact ⟨And.left, fun places => ⟨places, fun i mem => places.lt_length mem⟩⟩

/-- A pattern has a place in a text just if it is a subsequence of the text. -/
theorem exists_places_iff {pattern text : List Char} :
    (∃ positions, Places pattern text positions) ↔ pattern.Sublist text := by
  constructor
  · rintro ⟨positions, places⟩
    have fits : ∀ i ∈ positions, i < text.length := fun i mem => places.lt_length mem
    have chars : pattern = (positions.pmap Fin.mk fits).map fun i => text[i] := by
      have some_chars := places.chars
      apply List.map_injective_iff.mpr fun _ _ => Option.some.inj
      rw [← some_chars, List.map_map, List.map_pmap]
      refine List.ext_getElem (by simp) fun i _ _ => ?_
      simp
    rw [chars]
    refine List.map_getElem_sublist ?_
    exact places.increasing.pmap fits fun i _ j _ less => less
  · intro sublist
    obtain ⟨positions, rfl, increasing⟩ := List.sublist_eq_map_getElem sublist
    refine ⟨positions.map Fin.val, increasing.map _ fun i j less => less, ?_⟩
    rw [List.map_map, List.map_map]
    exact List.map_congr_left fun i _ => by simp

theorem firstPositions_isSome_iff {pattern text : List Char} (n : Nat) :
    (firstPositions n pattern text).isSome ↔ pattern.Sublist text := by
  fun_induction firstPositions n pattern text with
  | case1 => simp
  | case2 => simp
  | case3 n p ps c cs same ih =>
    rw [Option.isSome_map, ih, beq_iff_eq.mp same, List.cons_sublist_cons]
  | case4 n p ps c cs other ih =>
    have apart : p ≠ c := by simpa using other
    rw [ih, List.sublist_cons_iff]
    simp [apart]

/-- A match is found just if the pattern is a subsequence of the text, both in lower case. Where the text keeps its
length in lower case, the match is a placement of the pattern, its score is what this placement counts, and no
placement counts more. -/
theorem fuzzyMatch_best (pattern text : String) :
    ((fuzzyMatch pattern text).isSome ↔ (lower pattern).toList.Sublist (lower text).toList) ∧
      ((lower text).length = text.length → ∀ m, fuzzyMatch pattern text = some m →
        Places (lower pattern).toList (lower text).toList m.positions ∧
        countOf text.toList m.positions = m.score ∧
        ∀ positions, Places (lower pattern).toList (lower text).toList positions →
          countOf text.toList positions ≤ m.score) := by
  simp only [lower, String.toList_ofList, String.length_ofList]
  rw [fuzzyMatch]
  generalize lowerChars pattern.toList = ps
  generalize lowerChars text.toList = folded
  by_cases empty : ps.isEmpty
  · rw [if_pos empty]
    obtain rfl := List.isEmpty_iff.mp empty
    refine ⟨by simp, fun _ m found => ?_⟩
    obtain rfl := Option.some.inj found
    refine ⟨⟨.nil, rfl⟩, rfl, fun positions places => ?_⟩
    obtain rfl := List.eq_nil_of_length_eq_zero places.length_eq
    exact Int.le_refl 0
  rw [if_neg empty]
  by_cases short : folded.length < ps.length
  · rw [if_pos short]
    refine ⟨?_, fun _ m found => nomatch found⟩
    have long : ¬ ps.Sublist folded := fun sublist => Nat.not_lt.mpr sublist.length_le short
    simp [long]
  rw [if_neg short]
  by_cases same : folded.length = text.length
  · rw [if_neg (by simp [same])]
    have best := placeAll_getLast (same.trans String.length_toList.symm) ps
    dsimp only
    generalize (placeAll (folded.zip text.toList) true ps
      (List.replicate (folded.length + 1) (some {}))).getLast?.bind id = a at best
    refine ⟨by rw [Option.isSome_map, best.isSome_iff, exists_places_iff], fun _ m found => ?_⟩
    obtain ⟨b, rfl, rfl⟩ := Option.map_eq_some_iff.mp found
    exact best
  · rw [if_pos (by simpa using same), Option.isSome_map, firstPositions_isSome_iff]
    exact ⟨Iff.rfl, fun kept => absurd kept same⟩

/-- The letters that begin words count more than the first ones that fit. -/
theorem fuzzyMatch_best_word_starts :
    (lower "grp_ReadPath").length = "grp_ReadPath".length ∧ fuzzyMatch "rp" "grp_ReadPath" = some ⟨65, [4, 8]⟩ ∧
      Places (lower "rp").toList (lower "grp_ReadPath").toList [4, 8] ∧
      countOf "grp_ReadPath".toList [4, 8] = 65 ∧
      ∀ positions, Places (lower "rp").toList (lower "grp_ReadPath").toList positions →
        countOf "grp_ReadPath".toList positions ≤ 65 := by
  have kept : (lower "grp_ReadPath").length = "grp_ReadPath".length := by decide +kernel
  have found : fuzzyMatch "rp" "grp_ReadPath" = some ⟨65, [4, 8]⟩ := by decide +kernel
  exact ⟨kept, found, (fuzzyMatch_best "rp" "grp_ReadPath").2 kept _ found⟩

theorem Places.shift {pattern text : List Char} {positions : List Nat} (places : Places pattern text positions)
    (c : Char) : Places pattern (c :: text) (positions.map (· + 1)) := by
  refine ⟨List.pairwise_map.mpr (places.increasing.imp Nat.succ_lt_succ), ?_⟩
  rw [List.map_map, ← places.chars]
  exact List.map_congr_left fun i _ => List.getElem?_cons_succ

theorem Places.cons {pattern text : List Char} {positions : List Nat} (places : Places pattern text positions)
    (c : Char) : Places (c :: pattern) (c :: text) (0 :: positions.map (· + 1)) := by
  have later := places.shift c
  refine ⟨List.pairwise_cons.mpr ⟨fun i mem => ?_, later.increasing⟩, ?_⟩
  · obtain ⟨j, -, rfl⟩ := List.mem_map.mp mem
    exact Nat.succ_pos j
  · rw [List.map_cons, later.chars]
    rfl

/-- The first positions are a placement. -/
theorem firstPositions_places {n : Nat} {pattern text : List Char} {positions : List Nat}
    (found : firstPositions n pattern text = some positions) :
    ∃ own, positions = own.map (n + ·) ∧ Places pattern text own := by
  fun_induction firstPositions n pattern text generalizing positions with
  | case1 => exact ⟨[], (Option.some.inj found).symm, .nil, rfl⟩
  | case2 => contradiction
  | case3 n p ps c cs same ih =>
    obtain rfl := beq_iff_eq.mp same
    obtain ⟨rest, later, rfl⟩ := Option.map_eq_some_iff.mp found
    obtain ⟨own, rfl, places⟩ := ih later
    refine ⟨0 :: own.map (· + 1), ?_, places.cons p⟩
    simp [Nat.add_assoc, Nat.add_comm 1]
  | case4 n p ps c cs other ih =>
    obtain ⟨own, rfl, places⟩ := ih found
    refine ⟨own.map (· + 1), ?_, places.shift c⟩
    simp [Nat.add_assoc, Nat.add_comm 1]

/-- The positions of a match are a placement in the lower-case form of the text, whatever its length. -/
theorem fuzzyMatch_places {pattern text : String} {m : FuzzyMatch} (found : fuzzyMatch pattern text = some m) :
    Places (lowerChars pattern.toList) (lowerChars text.toList) m.positions := by
  dsimp only [fuzzyMatch] at found
  split at found
  · next empty =>
    obtain rfl := Option.some.inj found
    rw [List.isEmpty_iff.mp empty]
    exact ⟨.nil, rfl⟩
  split at found
  · cases found
  split at found
  · obtain ⟨positions, first, rfl⟩ := Option.map_eq_some_iff.mp found
    obtain ⟨own, rfl, places⟩ := firstPositions_places first
    simpa using places
  · next same =>
    have same : (lowerChars text.toList).length = text.toList.length := by
      rw [String.length_toList]
      simpa using same
    have best := placeAll_getLast same (lowerChars pattern.toList)
    obtain ⟨a, last, rfl⟩ := Option.map_eq_some_iff.mp found
    rw [last] at best
    exact best.1

/-- A text that grows in lower case matches itself. -/
theorem exists_fuzzyMatch_self {text : String} (grows : (lowerChars text.toList).length ≠ text.length) :
    ∃ m, fuzzyMatch text text = some m := by
  have filled : (lowerChars text.toList).isEmpty = false := by
    rw [List.isEmpty_eq_false_iff]
    rintro none
    rw [length_lowerChars, String.length_toList] at grows
    have := length_lowerChars text.toList
    rw [none, List.length_nil] at this
    omega
  rw [← Option.isSome_iff_exists, fuzzyMatch]
  dsimp only
  rw [filled, if_neg Bool.false_ne_true, if_neg (Nat.lt_irrefl _), if_pos (by simpa using grows), Option.isSome_map,
    firstPositions_isSome_iff]

/-- A character begins the lower-case form of the character at a position of a text. That form is the one that the
character has alone, but for a capital sigma, which has another one at the end of a word. -/
def BeginsAt (text : List Char) (p : Char) (i : Nat) : Prop :=
  ∃ c, text[i]? = some c ∧ (lowerAt (text.take i).reverse c (text.drop (i + 1))).head? = some p ∧
    (c ≠ 'Σ' → (lowerChars [c]).head? = some p)

/-- Where no character before it grows, a position of the lower-case form is one of the text. -/
theorem beginsAt_of_lowerChars {text : List Char} {p : Char} {i : Nat} (plain : 'İ' ∉ text.take i)
    (char : (lowerChars text)[i]? = some p) : BeginsAt text p i := by
  have inside : i < text.length := by
    by_contra beyond
    rw [List.take_of_length_le (Nat.not_lt.mp beyond)] at plain
    obtain ⟨inside, -⟩ := List.getElem?_eq_some_iff.mp char
    rw [length_lowerChars, List.count_eq_zero_of_not_mem plain] at inside
    exact beyond inside
  have own : text[i]? = some text[i] := List.getElem?_eq_getElem inside
  rw [getElem?_lowerChars plain own] at char
  refine ⟨text[i], own, char, fun other => ?_⟩
  have alone : (lowerChars [text[i]])[0]? = (lowerAt [] text[i] []).head? :=
    getElem?_lowerChars List.not_mem_nil rfl
  have other : (text[i] == 'Σ') = false := beq_eq_false_iff_ne.mpr other
  rw [List.head?_eq_getElem?, alone, ← char, lowerAt, lowerAt, other]
  rfl

/-- The lower-case form of a pattern stands in order at positions of a text. -/
structure StandsIn (pattern text : String) (positions : List Nat) : Prop where
  increasing : positions.Pairwise (· < ·)
  inside : ∀ i ∈ positions, i < text.length
  fits : List.Forall₂ (BeginsAt text.toList) (lower pattern).toList positions

theorem Places.forall₂ {pattern text : List Char} {positions : List Nat} (places : Places pattern text positions) :
    List.Forall₂ (fun p i => text[i]? = some p) pattern positions := by
  have same : List.Forall₂ Eq (positions.map (text[·]?)) (pattern.map some) := by
    rw [List.forall₂_eq_eq_eq]
    exact places.chars
  rw [List.forall₂_map_left_iff, List.forall₂_map_right_iff] at same
  exact List.Forall₂.flip same

/-- Increasing positions of a text are no more than its characters. -/
theorem StandsIn.length_le {pattern text : String} {positions : List Nat} (stands : StandsIn pattern text positions) :
    (lower pattern).length ≤ text.length := by
  have distinct : positions.Nodup := stands.increasing.imp Nat.ne_of_lt
  have fewer := (List.Nodup.subperm distinct fun i mem => List.mem_range.mpr (stands.inside i mem)).length_le
  rwa [List.length_range, ← stands.fits.length_eq, String.length_toList] at fewer

/-- The positions of a match are increasing, one for each character of the pattern in lower case, and hold these
characters in the lower-case form of the text. Those before which no dotted capital I stands are positions of the text
itself, of characters whose lower-case forms begin so. That all positions of all matches in a text are such is the case
just if the text keeps its length in lower case. -/
theorem matched_positions_of_text_iff (text : String) :
    (∀ pattern m, fuzzyMatch pattern text = some m →
      Places (lower pattern).toList (lower text).toList m.positions ∧
      List.Forall₂ (fun p i => 'İ' ∉ text.toList.take i → BeginsAt text.toList p i)
        (lower pattern).toList m.positions) ∧
    ((∀ pattern m, fuzzyMatch pattern text = some m → StandsIn pattern text m.positions) ↔
      (lower text).length = text.length) := by
  simp only [lower, String.toList_ofList, String.length_ofList]
  refine ⟨fun pattern m found => ?_, fun right => ?_, fun kept pattern m found => ?_⟩
  · have places := fuzzyMatch_places found
    exact ⟨places, List.Forall₂.imp (fun p i char plain => beginsAt_of_lowerChars plain char) places.forall₂⟩
  · by_contra grows
    obtain ⟨m, found⟩ := exists_fuzzyMatch_self grows
    have fewer := (right text m found).length_le
    rw [lower, String.length_ofList] at fewer
    have := length_lowerChars text.toList
    rw [String.length_toList] at this
    omega
  · have plain : 'İ' ∉ text.toList := by
      rw [length_lowerChars, String.length_toList] at kept
      exact List.count_eq_zero.mp (by omega)
    have places := fuzzyMatch_places found
    refine ⟨places.increasing, fun i mem => kept ▸ places.lt_length mem, ?_⟩
    rw [lower, String.toList_ofList]
    exact List.Forall₂.imp (fun p i char =>
      beginsAt_of_lowerChars (fun early => plain (List.mem_of_mem_take early)) char) places.forall₂

/-- After a dotted capital I, the last character of a text is found beyond its end. -/
theorem position_beyond_end_after_dotted_capital :
    fuzzyMatch "a" "İbA" = some ⟨10, [3]⟩ ∧ "İbA".length = 3 ∧ ¬ StandsIn "a" "İbA" [3] := by
  refine ⟨by decide +kernel, by decide +kernel, fun stands => ?_⟩
  have inside := stands.inside 3 (List.mem_singleton_self 3)
  exact absurd inside (by decide +kernel)

end CodeAgent.Symbols
