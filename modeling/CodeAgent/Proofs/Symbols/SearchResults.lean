import CodeAgent.Config.Settings
import CodeAgent.Proofs.FirstOfEach
import CodeAgent.Symbols.Search

/-! What a search of the index returns: of the symbols that answer the query, the best one of each identity, the best
first, up to the limit. -/
namespace CodeAgent

/-- A symbol of an index at its place, with what it scores for a query. -/
structure SymbolMatch where
  score : Int
  symbol : IndexedSymbol
  place : Nat
  deriving DecidableEq

theorem zipIdx_pairwise {α : Type} (l : List α) : l.zipIdx.Pairwise fun x y => x.2 < y.2 := by
  have increasing : (l.zipIdx.map Prod.snd).Pairwise (· < ·) := by
    rw [List.zipIdx_map_snd]
    exact List.pairwise_lt_range'
  exact List.pairwise_map.mp increasing

/-- If the start of a list in order leaves an element out, the start is full, and its last element goes before. -/
theorem exists_last_of_notMem_take {α : Type} {r : α → α → Prop} {l : List α} (sorted : l.Pairwise r) {n : Nat}
    (positive : 0 < n) {a : α} (mem : a ∈ l) (out : a ∉ l.take n) :
    (l.take n).length = n ∧ ∃ last ∈ (l.take n).getLast?, r last a := by
  have later : a ∈ l.drop n := by
    rw [← List.take_append_drop n l] at mem
    exact (List.mem_append.mp mem).resolve_left out
  have full : (l.take n).length = n := by
    have some_later := List.length_pos_of_mem later
    rw [List.length_drop] at some_later
    exact List.length_take_of_le (by omega)
  have filled : l.take n ≠ [] := by
    apply List.ne_nil_of_length_pos
    omega
  rw [← List.take_append_drop n l] at sorted
  obtain ⟨-, -, across⟩ := List.pairwise_append.mp sorted
  exact ⟨full, _, List.getLast?_eq_some_getLast filled, across _ (List.getLast_mem filled) a later⟩

namespace SymbolMatch

/-- A match goes before another one that scores less, or as much and stands later in the index. -/
def Before (m n : SymbolMatch) : Prop := n.score < m.score ∨ n.score = m.score ∧ m.place < n.place

theorem Before.score_le {m n : SymbolMatch} (before : m.Before n) : n.score ≤ m.score := by
  rcases before with less | ⟨same, -⟩
  · exact Int.le_of_lt less
  · exact Int.le_of_eq same

theorem Before.ne {m n : SymbolMatch} (before : m.Before n) : m ≠ n := by
  rintro rfl
  rcases before with less | ⟨-, less⟩
  · exact Int.lt_irrefl _ less
  · exact Nat.lt_irrefl _ less

/-- The order by scores alone. -/
def scoresLE (m n : SymbolMatch) : Bool := decide (n.score ≤ m.score)

theorem scoresLE_trans (a b c : SymbolMatch) (first : scoresLE a b = true) (second : scoresLE b c = true) :
    scoresLE a c = true := by
  simp only [scoresLE, decide_eq_true_eq] at *
  exact Int.le_trans second first

theorem scoresLE_total (a b : SymbolMatch) : (scoresLE a b || scoresLE b a) = true := by
  simp only [scoresLE, Bool.or_eq_true, decide_eq_true_eq]
  exact Int.le_total _ _

/-- Sorting matches by scores leaves those with equal scores in the order of the index. -/
theorem mergeSort_before {ms : List SymbolMatch} (ordered : ms.Pairwise fun m n => m.place < n.place) :
    (ms.mergeSort scoresLE).Pairwise Before := by
  have numbered : (ms.zipIdx.mergeSort (List.zipIdxLE scoresLE)).Pairwise fun x y =>
      List.zipIdxLE scoresLE x y = true :=
    List.pairwise_mergeSort (List.zipIdxLE_trans scoresLE_trans) (List.zipIdxLE_total scoresLE_total) _
  have apart : (ms.zipIdx.mergeSort (List.zipIdxLE scoresLE)).Pairwise fun x y => x.2 ≠ y.2 := by
    rw [(List.mergeSort_perm _ _).pairwise_iff Ne.symm]
    exact (zipIdx_pairwise ms).imp Nat.ne_of_lt
  rw [← List.mergeSort_zipIdx, List.pairwise_map]
  refine (numbered.and apart).imp_of_mem ?_
  rintro ⟨m, i⟩ ⟨n, j⟩ hm hn ⟨le, ne⟩
  obtain ⟨inside, rfl⟩ := List.getElem?_eq_some_iff.mp (List.mk_mem_zipIdx_iff_getElem?.mp (List.mem_mergeSort.mp hm))
  obtain ⟨inside', rfl⟩ := List.getElem?_eq_some_iff.mp (List.mk_mem_zipIdx_iff_getElem?.mp (List.mem_mergeSort.mp hn))
  have order := List.pairwise_iff_getElem.mp ordered i j inside inside'
  simp only [List.zipIdxLE, scoresLE, decide_eq_true_eq, Bool.if_false_right, Bool.and_eq_true] at le
  split at le
  · next same =>
    have less : i < j := Nat.lt_of_le_of_ne (by simpa using le.2) ne
    exact .inr ⟨Int.le_antisymm le.1 same, order less⟩
  · next less => exact .inl (Int.not_le.mp less)

end SymbolMatch

namespace IndexData
variable {d : IndexData} {q : SymbolQuery} {short : Bool}

/-- A symbol of an index answers a query: it stands there, and has this score. -/
structure Matches (d : IndexData) (q : SymbolQuery) (short : Bool) (m : SymbolMatch) : Prop where
  there : d.flat[m.place]? = some m.symbol
  answers : m.symbol.score? q short = some m.score

theorem Matches.mem {m : SymbolMatch} (found : d.Matches q short m) : m.symbol ∈ d.flat :=
  List.mem_of_getElem? found.there

/-- The matches of a query in the order of the index. -/
def matchesOf (d : IndexData) (q : SymbolQuery) (short : Bool) : List SymbolMatch :=
  d.flat.zipIdx.filterMap fun x => (x.1.score? q short).map (⟨·, x.1, x.2⟩)

theorem mem_matchesOf {m : SymbolMatch} : m ∈ d.matchesOf q short ↔ d.Matches q short m := by
  simp only [matchesOf, List.mem_filterMap, List.mem_zipIdx_iff_getElem?, Option.map_eq_some_iff]
  constructor
  · rintro ⟨⟨s, i⟩, there, score, answers, rfl⟩
    exact ⟨there, answers⟩
  · rintro ⟨there, answers⟩
    exact ⟨(m.symbol, m.place), there, m.score, answers, rfl⟩

theorem matchesOf_pairwise : (d.matchesOf q short).Pairwise fun m n => m.place < n.place := by
  refine List.pairwise_filterMap.mpr ((zipIdx_pairwise d.flat).imp ?_)
  rintro x y less m hm n hn
  obtain ⟨_, -, rfl⟩ := Option.map_eq_some_iff.mp hm
  obtain ⟨_, -, rfl⟩ := Option.map_eq_some_iff.mp hn
  exact less

/-- The matches of a query, the best first. -/
def rankedMatches (d : IndexData) (q : SymbolQuery) (short : Bool) : List SymbolMatch :=
  (d.matchesOf q short).mergeSort SymbolMatch.scoresLE

theorem ranked_eq_map : d.ranked q short = (d.rankedMatches q short).map fun m => (m.score, m.symbol) := by
  have scored : (d.matchesOf q short).map (fun m => (m.score, m.symbol)) =
      d.flat.filterMap fun s => (s.score? q short).map (·, s) := by
    rw [matchesOf, List.map_filterMap]
    conv_rhs => rw [← List.zipIdx_map_fst 0 d.flat, List.filterMap_map]
    simp only [Option.map_map, Function.comp_def]
  have sorted : (d.rankedMatches q short).map (fun m => (m.score, m.symbol)) =
      ((d.matchesOf q short).map fun m => (m.score, m.symbol)).mergeSort fun a b => decide (b.1 ≤ a.1) :=
    List.map_mergeSort fun _ _ _ _ => rfl
  rw [sorted, scored]
  rfl

theorem mem_rankedMatches {m : SymbolMatch} : m ∈ d.rankedMatches q short ↔ d.Matches q short m := by
  rw [rankedMatches, List.mem_mergeSort, mem_matchesOf]

theorem rankedMatches_pairwise : (d.rankedMatches q short).Pairwise SymbolMatch.Before :=
  SymbolMatch.mergeSort_before matchesOf_pairwise

end IndexData

theorem distinctSymbols_map (seen : List String) (ms : List SymbolMatch) :
    distinctSymbols seen (ms.map (·.symbol)) = (firstOfEach (·.symbol.identity) seen ms).map (·.symbol) := by
  induction ms generalizing seen with
  | nil => rfl
  | cons m ms ih =>
    rw [List.map_cons, distinctSymbols, firstOfEach]
    by_cases old : m.symbol.identity ∈ seen
    · rw [if_pos (List.contains_iff_mem.mpr old), if_pos old, ih]
    · rw [if_neg (mt List.contains_iff_mem.mp old), if_neg old, ih, List.map_cons]

namespace IndexData
variable {d : IndexData} {q : SymbolQuery} {short : Bool}

/-- The best matches of distinct identities, as many as a limit allows. -/
structure BestDistinct (d : IndexData) (q : SymbolQuery) (short : Bool) (limit : Int) (chosen : List SymbolMatch) :
    Prop where
  sound : ∀ m ∈ chosen, d.Matches q short m
  few : (chosen.length : Int) ≤ limit
  distinct : (chosen.map (·.symbol.identity)).Nodup
  ordered : chosen.Pairwise SymbolMatch.Before
  best : ∀ m ∈ chosen, ∀ n, d.Matches q short n → n.symbol.identity = m.symbol.identity → n = m ∨ m.Before n
  complete : ∀ n, d.Matches q short n → n.symbol.identity ∉ chosen.map (·.symbol.identity) →
    (chosen.length : Int) = limit ∧ ∃ last ∈ chosen.getLast?, n.score ≤ last.score

/-- The best matches of each identity, the best first. -/
def bestMatches (d : IndexData) (q : SymbolQuery) (short : Bool) : List SymbolMatch :=
  firstOfEach (·.symbol.identity) [] (d.rankedMatches q short)

theorem search_eq {shortLength limit : Int} {query : String} (asked : (SymbolQuery.ofText query).text ≠ "") :
    d.search shortLength limit query =
      ((d.bestMatches (SymbolQuery.ofText query) (isShort shortLength (SymbolQuery.ofText query).text)).take
        (max 1 limit.toNat)).map (·.symbol) := by
  rw [search, if_neg (by simpa using asked), ranked_eq_map, List.map_map, List.map_take]
  exact congrArg _ (distinctSymbols_map [] _)

/-- A search answers with symbols of the index. -/
theorem mem_flat_of_mem_search {shortLength limit : Int} {query : String} {s : IndexedSymbol}
    (found : s ∈ d.search shortLength limit query) : s ∈ d.flat := by
  by_cases asked : (SymbolQuery.ofText query).text = ""
  · rw [search, if_pos (by simpa using asked)] at found
    cases found
  · rw [search_eq asked] at found
    obtain ⟨m, best, rfl⟩ := List.mem_map.mp found
    exact (mem_rankedMatches.mp ((firstOfEach_sublist _ _).mem (List.mem_of_mem_take best))).mem

theorem bestDistinct_take (d : IndexData) (q : SymbolQuery) (short : Bool) {limit : Int} (positive : 1 ≤ limit) :
    d.BestDistinct q short limit ((d.bestMatches q short).take limit.toNat) := by
  have sub : (d.bestMatches q short).Sublist (d.rankedMatches q short) := firstOfEach_sublist _ _
  have ordered : (d.bestMatches q short).Pairwise SymbolMatch.Before := rankedMatches_pairwise.sublist sub
  have distinct : ((d.bestMatches q short).map (·.symbol.identity)).Nodup := nodup_firstOfEach _ _
  have taken : ((d.bestMatches q short).take limit.toNat).Sublist (d.bestMatches q short) := List.take_sublist _ _
  have exists_first {n : SymbolMatch} (found : d.Matches q short n) : ∃ m ∈ d.bestMatches q short,
      m.symbol.identity = n.symbol.identity ∧ (m = n ∨ m.Before n) :=
    exists_mem_firstOfEach (fun m : SymbolMatch => m.symbol.identity) rankedMatches_pairwise
      (mem_rankedMatches.mpr found) List.not_mem_nil
  exact {
    sound := fun m mem => mem_rankedMatches.mp (sub.subset (taken.subset mem))
    few := by
      rw [List.length_take]
      omega
    distinct := distinct.sublist (taken.map _)
    ordered := ordered.sublist taken
    best := by
      intro m mem n found same
      obtain ⟨first, own, key, le⟩ := exists_first found
      obtain rfl := List.inj_on_of_nodup_map distinct own (taken.subset mem) (key.trans same)
      exact le.imp_left Eq.symm
    complete := by
      intro n found absent
      obtain ⟨m, own, key, le⟩ := exists_first found
      have out : m ∉ (d.bestMatches q short).take limit.toNat := fun own => absent (key ▸ List.mem_map_of_mem own)
      obtain ⟨full, last, final, before⟩ := exists_last_of_notMem_take ordered (by omega) own out
      refine ⟨by omega, last, final, Int.le_trans ?_ before.score_le⟩
      rcases le with rfl | le
      · exact Int.le_refl _
      · exact le.score_le }

/-- A search for some text returns, up to the limit, the best match of each identity, the best first and equals in the
order of the index. A match is left out only for a better one of its identity, or because the limit is reached. One more
allowed result only adds one at the end. A search for blank text returns nothing. -/
theorem search_best_distinct (d : IndexData) (settings : Settings) {asked : Option Int}
    (positive : 1 ≤ settings.resultLimit asked) (query : String) :
    let q := SymbolQuery.ofText query
    let short := isShort settings.shortQueryLength q.text
    let limit := settings.resultLimit asked
    (q.text = "" → d.search settings.shortQueryLength limit query = []) ∧
      (q.text ≠ "" → ∃ chosen, d.search settings.shortQueryLength limit query = chosen.map (·.symbol) ∧
        d.BestDistinct q short limit chosen) ∧
      d.search settings.shortQueryLength limit query <+: d.search settings.shortQueryLength (limit + 1) query := by
  intro q short limit
  have blank (limit : Int) (none : q.text = "") : d.search settings.shortQueryLength limit query = [] := by
    rw [search, if_pos (by simpa using none)]
  have counted : max 1 limit.toNat = limit.toNat := by omega
  refine ⟨blank limit, fun text => ⟨_, search_eq text, ?_⟩, ?_⟩
  · rw [counted]
    exact d.bestDistinct_take q short positive
  · by_cases text : q.text = ""
    · rw [blank limit text]
      exact List.nil_prefix
    · rw [search_eq text, search_eq text]
      apply List.IsPrefix.map
      apply List.take_prefix_take_left
      omega

/-- A class, and in another file a function of its name that is defined twice, and one with a longer name. -/
def namesakes : IndexData where
  flat := [
    { name := "save", kind := "Class", file := "a.py", startLine := 1, endLine := 9 },
    { name := "save", kind := "Function", file := "b.py", startLine := 1, endLine := 2 },
    { name := "save", kind := "Function", file := "b.py", startLine := 4, endLine := 5 },
    { name := "saveAll", kind := "Function", file := "b.py", startLine := 7, endLine := 8 }]

/-- They stand in the order of their scores. -/
theorem ranked_namesakes :
    namesakes.ranked (SymbolQuery.ofText "save") (isShort 3 (SymbolQuery.ofText "save").text) =
      namesakes.flat.filterMap fun s =>
        (s.score? (SymbolQuery.ofText "save") (isShort 3 (SymbolQuery.ofText "save").text)).map (·, s) :=
  List.mergeSort_of_pairwise (by decide +kernel)

/-- The first definition of the function stands for both, so that the third result has another name. -/
theorem search_best_distinct_namesakes :
    1 ≤ ({} : Settings).resultLimit (some 3) ∧ (SymbolQuery.ofText "save").text ≠ "" ∧
      (namesakes.search 3 3 "save").map (fun s => (s.name, s.startLine)) = [("save", 1), ("save", 1), ("saveAll", 7)] ∧
      ∃ chosen, namesakes.search 3 3 "save" = chosen.map (·.symbol) ∧
        namesakes.BestDistinct (SymbolQuery.ofText "save") (isShort 3 (SymbolQuery.ofText "save").text) 3 chosen := by
  have positive : 1 ≤ ({} : Settings).resultLimit (some 3) := by decide
  have text : (SymbolQuery.ofText "save").text ≠ "" := by decide +kernel
  have returned : (namesakes.search 3 3 "save").map (fun s => (s.name, s.startLine)) =
      [("save", 1), ("save", 1), ("saveAll", 7)] := by
    rw [search, if_neg (by simpa using text), ranked_namesakes]
    decide +kernel
  obtain ⟨-, chosen, -⟩ := search_best_distinct namesakes {} positive "save"
  exact ⟨positive, text, returned, chosen text⟩

/-- Every name starts with the empty text, but a search for it returns nothing. -/
theorem blank_search_leaves_matches_out :
    1 ≤ ({} : Settings).resultLimit none ∧
      (∃ m, namesakes.Matches (SymbolQuery.ofText "  ") (isShort 3 (SymbolQuery.ofText "  ").text) m) ∧
      namesakes.search 3 (({} : Settings).resultLimit none) "  " = [] ∧
      ¬ ∃ chosen, namesakes.search 3 (({} : Settings).resultLimit none) "  " = chosen.map (·.symbol) ∧
        namesakes.BestDistinct (SymbolQuery.ofText "  ") (isShort 3 (SymbolQuery.ofText "  ").text)
          (({} : Settings).resultLimit none) chosen := by
  have found : namesakes.Matches (SymbolQuery.ofText "  ") (isShort 3 (SymbolQuery.ofText "  ").text)
      ⟨750, { name := "save", kind := "Class", file := "a.py", startLine := 1, endLine := 9 }, 0⟩ :=
    ⟨rfl, by decide +kernel⟩
  have none : namesakes.search 3 (({} : Settings).resultLimit none) "  " = [] := by decide +kernel
  refine ⟨by decide, ⟨_, found⟩, none, ?_⟩
  rintro ⟨chosen, returned, best⟩
  obtain rfl := List.map_eq_nil_iff.mp (returned.symm.trans none)
  obtain ⟨full, -⟩ := best.complete _ found List.not_mem_nil
  exact absurd full (by decide)

end IndexData
end CodeAgent
