import CodeAgent.Proofs.Symbols.PathClause
import CodeAgent.Proofs.Symbols.RankingTiers
import CodeAgent.Proofs.Symbols.SymbolIdentity

/-! What a clause on the path does to the results of a search: it leaves out the symbols of other files, and nothing else.
It adds the same points to each symbol that stays, so these keep their order. Symbols of one identity are in one file,
so the clause never makes one of them stand for another one. -/
namespace CodeAgent
open CodeAgent.Text

namespace SymbolMatch
variable {m n : SymbolMatch} {ms ns : List SymbolMatch}

theorem Before.asymm (before : m.Before n) : ¬ n.Before m := by
  unfold Before at *
  omega

/-- Matches in order are known from which ones they are. -/
theorem eq_of_pairwise_before (sorted : ms.Pairwise Before) (sorted' : ns.Pairwise Before)
    (same : ∀ m, m ∈ ms ↔ m ∈ ns) : ms = ns := by
  have perm : ms.Perm ns := (List.perm_ext_iff_of_nodup (sorted.imp Before.ne) (sorted'.imp Before.ne)).mpr same
  refine perm.eq_of_pairwise ?_ sorted sorted'
  intro m n _ _ before after
  exact absurd after before.asymm

/-- A match with more points. -/
def raised (points : Int) (m : SymbolMatch) : SymbolMatch := { m with score := points + m.score }

theorem Before.raised (before : m.Before n) (points : Int) : (m.raised points).Before (n.raised points) := by
  simp only [Before, SymbolMatch.raised] at *
  omega

end SymbolMatch

namespace IndexedSymbol

/-- What a clause on the path adds does not depend on the symbol. -/
theorem score?_within (s : IndexedSymbol) (text fragment : String) (short : Bool) :
    s.score? { text := text, within := some fragment } short =
      if containsText (lower s.file) fragment then (s.score? { text := text } short).map (100 + ·) else none := by
  rw [score?_eq, score?_eq]
  cases s.nameScore? text short <;> simp [SymbolQuery.admits, SymbolQuery.pathPoints, Int.add_assoc]

/-- Where neither names nor files have colons, symbols of one identity are the same. -/
theorem same_of_plain_ends {s t : IndexedSymbol} (same : s.identity = t.identity)
    (plain : ':' ∉ s.name.toList ∧ ':' ∉ s.file.toList) (plain' : ':' ∉ t.name.toList ∧ ':' ∉ t.file.toList) :
    s.Same t := by
  have total := congrArg colons same
  rw [colons_identity, colons_identity] at total
  simp only [← colons_eq_zero_iff] at plain plain'
  apply same_of_colons same <;> omega

end IndexedSymbol

namespace SymbolQuery

theorem ofText_of_no_mark {t : String} (none : containsText (lower t) " in " = false) :
    ofText t = { text := trim t } := by
  rw [containsText_lower] at none
  rw [ofText, lastOffset?_eq_none_iff.mpr none]

/-- A query is cut at its last mark, if no character before it grows in lower case. -/
theorem ofText_clause {t mark f : String} (kept : '\u0130' ∉ t.toList) (isMark : IsMark mark.toList)
    (last : containsText (lower (" " ++ f)) " in " = false) :
    ofText (t ++ mark ++ f) = { text := trim t, within := some (lower (trim f)) } := by
  have whole : (t ++ mark ++ f).toList = t.toList ++ (mark.toList ++ f.toList) := by
    simp only [String.toList_append, List.append_assoc]
  have found : lastOffset? clauseMark (lowerChars (t ++ mark ++ f).toList) =
      some (t.toList.length + growth t.toList) := by
    rw [containsText_lower, String.toList_append] at last
    rw [whole]
    exact lastOffset?_clause isMark last
  rw [growth, List.count_eq_zero.mpr kept, Nat.add_zero] at found
  rw [ofText_of_mark found, whole, List.take_left, ← isMark.length_eq, ← List.length_append, ← List.append_assoc,
    List.drop_left]
  simp only [trim, lower, String.toList_ofList]

end SymbolQuery

namespace IndexData
variable {d : IndexData} {text fragment : String} {short : Bool}

theorem matches_within_iff {m : SymbolMatch} :
    d.Matches { text := text, within := some fragment } short m ↔
      ∃ n, d.Matches { text := text } short n ∧ containsText (lower n.symbol.file) fragment = true ∧
        n.raised 100 = m := by
  constructor
  · rintro ⟨there, answers⟩
    rw [IndexedSymbol.score?_within] at answers
    split_ifs at answers with inside
    obtain ⟨score, answers, sum⟩ := Option.map_eq_some_iff.mp answers
    refine ⟨{ m with score := score }, ⟨there, answers⟩, inside, ?_⟩
    rw [SymbolMatch.raised, sum]
  · rintro ⟨n, ⟨there, answers⟩, inside, rfl⟩
    refine ⟨there, ?_⟩
    simp only [SymbolMatch.raised]
    rw [IndexedSymbol.score?_within, if_pos inside, answers, Option.map_some]

/-- With a clause, the matches in its files come in the order they have without it. -/
theorem rankedMatches_within (d : IndexData) (text fragment : String) (short : Bool) :
    d.rankedMatches { text := text, within := some fragment } short =
      ((d.rankedMatches { text := text } short).filter fun m => containsText (lower m.symbol.file) fragment).map
        (SymbolMatch.raised 100) := by
  refine SymbolMatch.eq_of_pairwise_before rankedMatches_pairwise ?_ fun m => ?_
  · rw [List.pairwise_map]
    exact (rankedMatches_pairwise.filter _).imp (SymbolMatch.Before.raised · 100)
  · rw [mem_rankedMatches, matches_within_iff]
    simp only [List.mem_map, List.mem_filter, mem_rankedMatches, and_assoc]

/-- With a clause, the best match of an identity is the one it has without it. -/
theorem bestMatches_within (plain : ∀ s ∈ d.flat, ':' ∉ s.name.toList ∧ ':' ∉ s.file.toList) (text fragment : String)
    (short : Bool) :
    d.bestMatches { text := text, within := some fragment } short =
      ((d.bestMatches { text := text } short).filter fun m => containsText (lower m.symbol.file) fragment).map
        (SymbolMatch.raised 100) := by
  have together : ∀ m ∈ d.rankedMatches { text := text } short, ∀ n ∈ d.rankedMatches { text := text } short,
      m.symbol.identity = n.symbol.identity →
        containsText (lower m.symbol.file) fragment = containsText (lower n.symbol.file) fragment := by
    intro m hm n hn same
    obtain ⟨-, -, file⟩ := IndexedSymbol.same_of_plain_ends same (plain _ (mem_rankedMatches.mp hm).mem)
      (plain _ (mem_rankedMatches.mp hn).mem)
    rw [file]
  have key : (fun m : SymbolMatch => m.symbol.identity) ∘ SymbolMatch.raised 100 = fun m => m.symbol.identity := rfl
  rw [bestMatches, bestMatches, rankedMatches_within, firstOfEach_map, key]
  exact congrArg _ (firstOfEach_filter _ together fun _ _ _ => Iff.rfl)

theorem length_bestMatches_le (d : IndexData) (q : SymbolQuery) (short : Bool) :
    (d.bestMatches q short).length ≤ d.flat.length :=
  calc (d.bestMatches q short).length
    _ ≤ (d.rankedMatches q short).length := (firstOfEach_sublist _ _).length_le
    _ = (d.matchesOf q short).length := List.length_mergeSort _
    _ ≤ d.flat.zipIdx.length := List.length_filterMap_le _ _
    _ = d.flat.length := List.length_zipIdx

/-- A limit of as many results as there are symbols cuts none off. -/
theorem search_whole {shortLength limit : Int} (all : d.flat.length ≤ max 1 limit.toNat) (query : String) :
    d.search shortLength limit query =
      if (SymbolQuery.ofText query).text = "" then []
      else (d.bestMatches (SymbolQuery.ofText query) (isShort shortLength (SymbolQuery.ofText query).text)).map
        (·.symbol) := by
  split_ifs with blank
  · rw [search, if_pos (by simpa using blank)]
  · rw [search_eq blank, List.take_of_length_le (Nat.le_trans (length_bestMatches_le _ _ _) all)]

/-- Where no name and no file has a colon, a search with a clause on the path returns, of what the search without it
returns, the symbols of the files with the piece of path in them, in any case. -/
theorem path_clause_only_filters (d : IndexData) (settings : Settings) {limit : Int} {t mark f : String}
    (plain : ∀ s ∈ d.flat, ':' ∉ s.name.toList ∧ ':' ∉ s.file.toList) (kept : '\u0130' ∉ t.toList)
    (none : containsText (lower t) " in " = false) (isMark : SymbolQuery.IsMark mark.toList)
    (last : containsText (lower (" " ++ f)) " in " = false) (all : (d.flat.length : Int) ≤ limit) :
    d.search settings.shortQueryLength (settings.resultLimit (some limit)) (t ++ mark ++ f) =
      (d.search settings.shortQueryLength (settings.resultLimit (some limit)) t).filter fun s =>
        containsText (lower s.file) (lower (trim f)) := by
  have uncut : d.flat.length ≤ max 1 (settings.resultLimit (some limit)).toNat := by
    by_cases zero : limit = 0
    · -- Asked for no results, it allows as many as usual; but then there are no symbols.
      rw [zero] at all
      omega
    · have limited : settings.resultLimit (some limit) = limit := by
        rw [Settings.resultLimit]
        simpa using zero
      rw [limited]
      omega
  rw [search_whole uncut, search_whole uncut, SymbolQuery.ofText_clause kept isMark last,
    SymbolQuery.ofText_of_no_mark none]
  dsimp only
  split_ifs with blank
  · rfl
  · rw [bestMatches_within plain, List.map_map, List.filter_map]
    rfl

/-- The class of the name goes; of the two definitions of the function, the first one stays the one that is returned. -/
theorem path_clause_only_filters_namesakes :
    (∀ s ∈ namesakes.flat, ':' ∉ s.name.toList ∧ ':' ∉ s.file.toList) ∧ '\u0130' ∉ "save".toList ∧
      containsText (lower "save") " in " = false ∧ SymbolQuery.IsMark " IN ".toList ∧
      containsText (lower (" " ++ "B.py ")) " in " = false ∧ (namesakes.flat.length : Int) ≤ 4 ∧
      (namesakes.search 3 4 ("save" ++ " IN " ++ "B.py ")).map (fun s => (s.name, s.startLine)) =
        [("save", 1), ("saveAll", 7)] := by
  have plain : ∀ s ∈ namesakes.flat, ':' ∉ s.name.toList ∧ ':' ∉ s.file.toList := by decide +kernel
  have kept : '\u0130' ∉ "save".toList := by decide +kernel
  have none : containsText (lower "save") " in " = false := by decide +kernel
  have isMark : SymbolQuery.IsMark " IN ".toList := ⟨'I', by decide, 'N', by decide, rfl⟩
  have last : containsText (lower (" " ++ "B.py ")) " in " = false := by decide +kernel
  have all : (namesakes.flat.length : Int) ≤ 4 := by decide
  have text : (SymbolQuery.ofText "save").text ≠ "" := by decide +kernel
  have filtered := path_clause_only_filters namesakes {} plain kept none isMark last all
  refine ⟨plain, kept, none, isMark, last, all, ?_⟩
  have searched : namesakes.search 3 4 ("save" ++ " IN " ++ "B.py ") =
      (namesakes.search 3 4 "save").filter fun s => containsText (lower s.file) (lower (trim "B.py ")) := filtered
  rw [searched, search, if_neg (by simpa using text), ranked_namesakes]
  decide +kernel

end IndexData
end CodeAgent
