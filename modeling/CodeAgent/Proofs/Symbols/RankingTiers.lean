import Mathlib.Data.List.Induction
import CodeAgent.Proofs.Symbols.BestPlacement
import CodeAgent.Symbols.Search

/-! How the kinds of fits between a text and the names of symbols are ranked: a name that is the text, or is it but for
case, or starts with it, scores a fixed number of points, and a name that only holds its characters in order what the
placement of these counts. The fixed scores keep apart, and from placements of short texts. -/
namespace CodeAgent
open CodeAgent.Text

namespace Symbols

/-- A first character counts between 10 and 50, a later one between 10 and 35. -/
theorem countAt_bounds (text : List Char) (isFirst : Bool) (i : Nat) :
    10 ≤ countAt text isFirst i ∧ countAt text isFirst i ≤ if isFirst then 50 else 35 := by
  rw [countAt]
  split_ifs <;> simp_all

theorem countOf_bounds (text : List Char) {positions : List Nat} (filled : positions ≠ []) :
    10 * (positions.length : Int) ≤ countOf text positions ∧
      countOf text positions ≤ 35 * (positions.length : Int) + 15 := by
  induction positions using List.reverseRecOn with
  | nil => contradiction
  | append_singleton before i ih =>
    have last := countAt_bounds text before.isEmpty i
    rw [countOf_concat, List.length_append, List.length_singleton]
    cases before with
    | nil =>
      simp only [List.isEmpty_nil, if_true] at last
      simp [countOf]
      omega
    | cons j before =>
      have earlier := ih (List.cons_ne_nil _ _)
      simp at last earlier ⊢
      omega

/-- There is a match of a text just if it is a subsequence of the name, both in lower case, and then the score is
within bounds. -/
theorem fuzzyMatch_spec {text name : String} (filled : text ≠ "") :
    ((fuzzyMatch text name).isSome ↔ (lower text).toList.Sublist (lower name).toList) ∧
      ∀ m, fuzzyMatch text name = some m →
        0 < m.score ∧ m.score ≤ 35 * ((lower text).length : Int) + 15 := by
  simp only [lower, String.toList_ofList, String.length_ofList]
  have letters : lowerChars text.toList ≠ [] := by
    intro none
    have size := length_lowerChars text.toList
    rw [none, List.length_nil, String.length_toList] at size
    exact filled (String.length_eq_zero_iff.mp (by omega))
  rw [fuzzyMatch]
  generalize lowerChars text.toList = ps at letters
  generalize lowerChars name.toList = folded
  rw [if_neg (by simpa using letters)]
  have some_letter := List.length_pos_of_ne_nil letters
  by_cases short : folded.length < ps.length
  · have long : ¬ ps.Sublist folded := fun sublist => Nat.not_lt.mpr sublist.length_le short
    simp [short, long]
  rw [if_neg short]
  by_cases same : folded.length = name.length
  · rw [if_neg (by simp [same])]
    have best := placeAll_getLast (same.trans String.length_toList.symm) ps
    dsimp only
    generalize (placeAll (folded.zip name.toList) true ps
      (List.replicate (folded.length + 1) (some {}))).getLast?.bind id = a at best
    refine ⟨by rw [Option.isSome_map, best.isSome_iff, exists_places_iff], fun m found => ?_⟩
    obtain ⟨b, rfl, rfl⟩ := Option.map_eq_some_iff.mp found
    obtain ⟨places, count, -⟩ := best
    have placed : b.reversed.reverse ≠ [] := by
      apply List.ne_nil_of_length_pos
      rw [places.length_eq]
      exact some_letter
    have bounds := countOf_bounds name.toList placed
    rw [count, places.length_eq] at bounds
    dsimp only
    omega
  · rw [if_pos (by simpa using same), Option.isSome_map, firstPositions_isSome_iff]
    refine ⟨Iff.rfl, fun m found => ?_⟩
    obtain ⟨positions, -, rfl⟩ := Option.map_eq_some_iff.mp found
    dsimp only
    omega

end Symbols

/-- How a name fits a text: it is the text, it is the text but for case, it starts with the text, or the characters of
the text come in order in it, in any case. -/
inductive NameFit where
  | exact
  | anyCase
  | begins
  | scattered
  deriving DecidableEq

namespace NameFit

/-- The better of two fits has the higher level. -/
def level : NameFit → Nat
  | exact => 3
  | anyCase => 2
  | begins => 1
  | scattered => 0

/-- What a fit scores; a scattered name scores what its match counts instead. -/
def points : NameFit → Int
  | exact => 1000
  | anyCase => 800
  | begins => 500
  | scattered => 0

/-- The best way in which a name fits a text. -/
def of? (name text : String) : Option NameFit :=
  if name = text then some exact
  else if lower name = lower text then some anyCase
  else if startsWith text.toList name.toList then some begins
  else if (Symbols.fuzzyMatch text name).isSome then some scattered
  else none

theorem points_lt {a b : NameFit} (better : b.level < a.level) (whole : b ≠ scattered) : b.points < a.points := by
  cases a <;> cases b <;> simp_all [level, points]

theorem low_lt_points {a b : NameFit} (better : b.level < a.level) : 50 < a.points := by
  cases a <;> simp_all [level, points]

variable {name text : String} {fit : NameFit}

/-- A fit is found in lower case, unless the last sigma of a text that a name starts with is another one there. -/
theorem sublist_of_fit (filled : text ≠ "") (fits : of? name text = some fit)
    (plain : fit = begins → '\u03a3' ∉ text.toList) : (lower text).toList.Sublist (lower name).toList := by
  rw [of?] at fits
  split_ifs at fits with same sameLower starts scattered
  · rw [same]
  · rw [sameLower]
  · obtain rfl := Option.some.inj fits
    obtain ⟨more, found⟩ := Option.isSome_iff_exists.mp starts
    simp only [lower, String.toList_ofList]
    rw [dropStart?_eq_some found]
    exact (lowerChars_start (plain rfl) more).sublist
  · exact (Symbols.fuzzyMatch_spec filled).1.mp scattered

end NameFit

namespace IndexedSymbol
variable {s : IndexedSymbol} {text : String} {fit : NameFit}

theorem nameScore?_of_match (filled : text ≠ "") {m : Symbols.FuzzyMatch}
    (found : Symbols.fuzzyMatch text s.name = some m) (fits : NameFit.of? s.name text = some fit) :
    s.nameScore? text false = some (if fit = .scattered then m.score else fit.points) := by
  have counted : (some m).filter (0 < ·.score) = some m := by
    simp [((Symbols.fuzzyMatch_spec filled).2 m found).1]
  rw [NameFit.of?] at fits
  rw [nameScore?, found, counted]
  simp only [Bool.false_eq_true, if_false, beq_iff_eq]
  split_ifs at fits with same sameLower starts scattered <;> obtain rfl := Option.some.inj fits
  · exact if_pos same
  · rw [if_neg same]
    exact if_pos sameLower
  · rw [if_neg same, if_neg sameLower]
    exact if_pos starts
  · rw [if_neg same, if_neg sameLower]
    exact if_neg starts

/-- Without a match of the name, the detail and the path do not count much. -/
theorem nameScore?_of_no_match (none : Symbols.fuzzyMatch text s.name = none) {n : Int}
    (scored : s.nameScore? text false = some n) : n ≤ 50 := by
  rw [nameScore?, none] at scored
  simp only [Bool.false_eq_true, if_false, Option.filter_none] at scored
  split_ifs at scored <;> obtain rfl := Option.some.inj scored <;> decide

theorem boost_congr {s t : IndexedSymbol} (kind : s.kind = t.kind) (parent : s.parent = t.parent)
    (file : s.file = t.file) (text : String) : s.boost text = t.boost text := by
  rw [boost, boost, isType, isType, isCallable, isCallable, kind, parent, file]

end IndexedSymbol

namespace SymbolQuery

/-- A file is where a query looks for symbols. -/
def admits (q : SymbolQuery) (file : String) : Bool := q.within.all (containsText (lower file))

/-- What a symbol scores for being where the query looks for it. -/
def pathPoints (q : SymbolQuery) : Int := if q.within.isSome then 100 else 0

end SymbolQuery

namespace IndexedSymbol
variable {s t : IndexedSymbol} {q : SymbolQuery}

theorem score?_eq (s : IndexedSymbol) (q : SymbolQuery) (short : Bool) : s.score? q short =
    if q.admits s.file then (s.nameScore? q.text short).map (q.pathPoints + · + s.boost q.text) else none := by
  obtain ⟨text, within⟩ := q
  rw [score?, SymbolQuery.admits, SymbolQuery.pathPoints]
  cases within with
  | none => cases s.nameScore? text short <;> rfl
  | some fragment =>
    cases admitted : containsText (lower s.file) fragment with
    | false => simp [admitted]
    | true => cases s.nameScore? text short <;> simp [admitted]

/-- Between symbols of one kind, parent and file, the names decide. -/
theorem score?_lt_iff (kind : s.kind = t.kind) (parent : s.parent = t.parent) (file : s.file = t.file) (short : Bool) :
    t.score? q short < s.score? q short ↔
      q.admits s.file = true ∧ t.nameScore? q.text short < s.nameScore? q.text short := by
  rw [score?_eq, score?_eq, boost_congr kind parent file, ← file]
  cases q.admits s.file with
  | false => simp
  | true =>
    cases t.nameScore? q.text short <;> cases s.nameScore? q.text short <;> simp

/-- Of two symbols of one kind, parent and file, the one with the better fitting name scores more, if the query looks for
symbols in the file, and the match of the other one, if it is only scattered, counts less than the better fit. A match
of at most thirteen characters always does. This is so whenever the better fit is found in lower case, and that is
always but for a name that starts with a text with a sigma. Otherwise the detail and the path decide, which count at
most fifty. -/
theorem better_fit_scores_more_iff {shortLength : Int} (positive : 1 ≤ shortLength) {q : SymbolQuery}
    (long : shortLength ≤ q.text.length) (kind : s.kind = t.kind) (parent : s.parent = t.parent)
    (file : s.file = t.file) {a b : NameFit} (fits : NameFit.of? s.name q.text = some a)
    (fits' : NameFit.of? t.name q.text = some b) (better : b.level < a.level) :
    let short := IndexData.isShort shortLength q.text
    let found := (lower q.text).toList.Sublist (lower s.name).toList
    (found → (t.score? q short < s.score? q short ↔ q.admits s.file = true ∧
        (b = .scattered → ∀ m, Symbols.fuzzyMatch q.text t.name = some m → m.score < a.points))) ∧
      ((a = .begins → '\u03a3' ∉ q.text.toList) → found) ∧
      (¬ found → ∀ n, s.nameScore? q.text short = some n → n ≤ 50) ∧
      ((lower q.text).length ≤ 13 → ∀ m, Symbols.fuzzyMatch q.text t.name = some m → m.score < 500) := by
  intro short found
  have notShort : short = false := by
    simp only [short, IndexData.isShort, decide_eq_false_iff_not]
    exact Int.not_lt.mpr long
  have filled : q.text ≠ "" := by
    rintro none
    rw [none, String.length_empty] at long
    exact absurd (Int.le_trans positive long) (by decide)
  rw [notShort]
  refine ⟨fun known => ?_, NameFit.sublist_of_fit filled fits, fun missed n scored => ?_, fun few m matched => ?_⟩
  · obtain ⟨m, matched⟩ := Option.isSome_iff_exists.mp ((Symbols.fuzzyMatch_spec filled).1.mpr known)
    have whole : a ≠ .scattered := by
      rintro rfl
      exact Nat.not_lt_zero _ better
    rw [score?_lt_iff kind parent file, nameScore?_of_match filled matched fits, if_neg whole]
    refine and_congr_right fun _ => ?_
    cases matched' : Symbols.fuzzyMatch q.text t.name with
    | some m' =>
      rw [nameScore?_of_match filled matched' fits']
      by_cases loose : b = .scattered
      · simp [loose]
      · simp [loose, NameFit.points_lt better loose]
    | none =>
      have less : t.nameScore? q.text false < some a.points := by
        cases scored : t.nameScore? q.text false with
        | none => simp
        | some n =>
          have low := nameScore?_of_no_match matched' scored
          have high := NameFit.low_lt_points better
          simp
          omega
      simp [less]
  · apply nameScore?_of_no_match ?_ scored
    rw [← Option.not_isSome_iff_eq_none, (Symbols.fuzzyMatch_spec filled).1]
    exact missed
  · have bound := ((Symbols.fuzzyMatch_spec filled).2 m matched).2
    omega

/-- A variable of some name in one file. -/
def nameOnly (name : String) : IndexedSymbol where
  name := name
  kind := "Variable"
  file := "app.py"
  startLine := 1
  endLine := 1

/-- Thirteen letters that all begin words do not count as much as the start of a name. -/
theorem better_fit_scores_more_at_thirteen :
    let q : SymbolQuery := { text := "abcdefghijklm" }
    let s := nameOnly "abcdefghijklmn"
    let t := nameOnly "A_B_C_D_E_F_G_H_I_J_K_L_M"
    (3 : Int) ≤ q.text.length ∧ NameFit.of? s.name q.text = some .begins ∧
      NameFit.of? t.name q.text = some .scattered ∧ (lower q.text).length ≤ 13 ∧
      t.score? q (IndexData.isShort 3 q.text) < s.score? q (IndexData.isShort 3 q.text) := by
  intro q s t
  have long : (3 : Int) ≤ q.text.length := by decide +kernel
  have begins : NameFit.of? s.name q.text = some .begins := by decide +kernel
  have scattered : NameFit.of? t.name q.text = some .scattered := by decide +kernel
  have few : (lower q.text).length ≤ 13 := by decide +kernel
  have plain : '\u03a3' ∉ q.text.toList := by decide +kernel
  obtain ⟨exact, known, -, bound⟩ :=
    better_fit_scores_more_iff (by decide) long (s := s) (t := t) rfl rfl rfl begins scattered (by decide)
  exact ⟨long, begins, scattered, few, (exact (known fun _ => plain)).mpr ⟨rfl, fun _ m => bound few m⟩⟩

/-- Fourteen letters that all begin words count more than the start of a name. -/
theorem scattered_fit_scores_more_at_fourteen :
    let q : SymbolQuery := { text := "abcdefghijklmn" }
    let s := nameOnly "abcdefghijklmno"
    let t := nameOnly "A_B_C_D_E_F_G_H_I_J_K_L_M_N"
    (3 : Int) ≤ q.text.length ∧ s.kind = t.kind ∧ s.parent = t.parent ∧ s.file = t.file ∧
      NameFit.of? s.name q.text = some .begins ∧ NameFit.of? t.name q.text = some .scattered ∧
      s.score? q (IndexData.isShort 3 q.text) = some 500 ∧ t.score? q (IndexData.isShort 3 q.text) = some 505 := by
  decide +kernel

/-- A name that starts with a text may have no match for it. -/
example : NameFit.of? "ΟΔΟΣΗΜΑ" "ΟΔΟΣ" = some .begins ∧ Symbols.fuzzyMatch "ΟΔΟΣ" "ΟΔΟΣΗΜΑ" = none := by
  decide +kernel

end IndexedSymbol
end CodeAgent
