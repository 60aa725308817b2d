import CodeAgent.Proofs.Symbols.SearchResults

/-! Which symbols have one identity. The name, the kind and the file of a symbol are joined by colons, so the identity
tells them apart as long as it is known which of its colons join. -/
namespace CodeAgent

theorem append_cons_inj_of_count {α : Type} [DecidableEq α] {mark : α} {as bs cs ds : List α}
    (same : as ++ mark :: cs = bs ++ mark :: ds) (marks : as.count mark = bs.count mark) : as = bs ∧ cs = ds := by
  induction as generalizing bs with
  | nil =>
    cases bs with
    | nil => exact ⟨rfl, (List.cons.inj same).2⟩
    | cons b bs =>
      obtain ⟨rfl, -⟩ := List.cons.inj same
      simp at marks
  | cons a as ih =>
    cases bs with
    | nil =>
      obtain ⟨rfl, -⟩ := List.cons.inj same
      simp at marks
    | cons b bs =>
      obtain ⟨rfl, rest⟩ := List.cons.inj same
      obtain ⟨rfl, rfl⟩ := ih rest (by simpa [List.count_cons] using marks)
      exact ⟨rfl, rfl⟩

namespace IndexedSymbol

/-- Two symbols have one name, one kind and one file. -/
def Same (s t : IndexedSymbol) : Prop := s.name = t.name ∧ s.kind = t.kind ∧ s.file = t.file

/-- The number of colons in a text. -/
def colons (text : String) : Nat := text.toList.count ':'

/-- A symbol's name and kind start the name of another one, and the other one's kind and file end its file. -/
def RunsInto (s t : IndexedSymbol) : Prop :=
  ∃ between : String, t.name ++ ":" = s.name ++ ":" ++ s.kind ++ ":" ++ between ∧
    s.file = between ++ t.kind ++ ":" ++ t.file

variable {s t : IndexedSymbol}

theorem identity_chars (s : IndexedSymbol) :
    s.identity.toList = s.name.toList ++ ':' :: (s.kind.toList ++ ':' :: s.file.toList) := by
  rw [identity]
  simp

theorem RunsInto.identity_eq (runs : s.RunsInto t) : s.identity = t.identity := by
  obtain ⟨between, name, file⟩ := runs
  calc s.identity
    _ = (s.name ++ ":" ++ s.kind ++ ":" ++ between) ++ t.kind ++ ":" ++ t.file := by
      rw [identity, file]
      simp only [String.append_assoc]
    _ = t.identity := by rw [← name, identity]

theorem Same.identity_eq (same : s.Same t) : s.identity = t.identity := by
  obtain ⟨name, kind, file⟩ := same
  rw [identity, identity, name, kind, file]

theorem same_of_colons (same : s.identity = t.identity) (names : colons s.name = colons t.name)
    (kinds : colons s.kind = colons t.kind) : s.Same t := by
  have chars := congrArg String.toList same
  rw [identity_chars, identity_chars] at chars
  obtain ⟨name, rest⟩ := append_cons_inj_of_count chars names
  obtain ⟨kind, file⟩ := append_cons_inj_of_count rest kinds
  exact ⟨String.toList_inj.mp name, String.toList_inj.mp kind, String.toList_inj.mp file⟩

theorem colons_identity (s : IndexedSymbol) : colons s.identity = colons s.name + colons s.kind + colons s.file + 2 := by
  rw [colons, identity_chars, colons, colons, colons]
  simp only [List.count_append, List.count_cons_self]
  omega

theorem colons_eq_zero_iff {text : String} : colons text = 0 ↔ ':' ∉ text.toList := List.count_eq_zero

/-- If the name of one symbol ends before that of another one, the first symbol runs into the other one. -/
theorem runsInto_of_append {more : List Char} (same : s.identity = t.identity) (whole : ':' ∉ s.kind.toList)
    (longer : t.name.toList = s.name.toList ++ ':' :: more) : s.RunsInto t := by
  have chars := congrArg String.toList same
  rw [identity_chars, identity_chars, longer, List.append_assoc, List.append_cancel_left_eq, List.cons_append,
    List.cons_inj_right] at chars
  have rest : (s.kind.toList ++ [':']) ++ s.file.toList =
      (more ++ [':']) ++ (t.kind.toList ++ ':' :: t.file.toList) := by
    simpa using chars
  rcases List.append_eq_append_iff.mp rest with ⟨between, name, file⟩ | ⟨between, name, file⟩
  · refine ⟨String.ofList between, String.toList_inj.mp ?_, String.toList_inj.mp ?_⟩
    · simp [longer, name]
    · simp [file]
  · obtain rfl | ⟨before, c, rfl⟩ := List.eq_nil_or_concat between
    · refine ⟨"", String.toList_inj.mp ?_, String.toList_inj.mp ?_⟩
      · simpa [longer] using name.symm
      · simpa using file.symm
    · have kind : s.kind.toList = more ++ ':' :: before := by
        rw [List.concat_eq_append, ← List.append_assoc] at name
        simpa using (List.append_inj' name rfl).1
      exact absurd (by simp [kind]) whole

/-- The identity is one text for two symbols just if they are the same or one runs into the other. -/
theorem identity_eq_iff_runs (whole : ':' ∉ s.kind.toList) (whole' : ':' ∉ t.kind.toList) :
    s.identity = t.identity ↔ s.Same t ∨ s.RunsInto t ∨ t.RunsInto s := by
  constructor
  · intro same
    have chars := congrArg String.toList same
    rw [identity_chars, identity_chars] at chars
    have kinds : colons s.kind = colons t.kind := by
      rw [colons_eq_zero_iff.mpr whole, colons_eq_zero_iff.mpr whole']
    rcases List.append_eq_append_iff.mp chars with ⟨more, name, rest⟩ | ⟨more, name, rest⟩
    · cases more with
      | nil => exact .inl (same_of_colons same (by simp [colons, name]) kinds)
      | cons c more =>
        obtain ⟨rfl, -⟩ := List.cons.inj rest
        exact .inr (.inl (runsInto_of_append same whole name))
    · cases more with
      | nil => exact .inl (same_of_colons same (by simp [colons, name]) kinds)
      | cons c more =>
        obtain ⟨rfl, -⟩ := List.cons.inj rest
        exact .inr (.inr (runsInto_of_append same.symm whole' name))
  · rintro (same | runs | runs)
    · exact same.identity_eq
    · exact runs.identity_eq
    · exact runs.identity_eq.symm

/-- Where names have no colons, or files have none, nor kinds, the identity is that of one symbol only. -/
theorem same_of_plain (same : s.identity = t.identity) (whole : ':' ∉ s.kind.toList) (whole' : ':' ∉ t.kind.toList)
    (plain : ':' ∉ s.name.toList ∧ ':' ∉ t.name.toList ∨ ':' ∉ s.file.toList ∧ ':' ∉ t.file.toList) : s.Same t := by
  have total := congrArg colons same
  rw [colons_identity, colons_identity] at total
  rw [← colons_eq_zero_iff] at whole whole'
  apply same_of_colons same
  · rcases plain with ⟨name, name'⟩ | ⟨file, file'⟩
    · rw [colons_eq_zero_iff.mpr name, colons_eq_zero_iff.mpr name']
    · rw [← colons_eq_zero_iff] at file file'
      omega
  · rw [whole, whole']

end IndexedSymbol

namespace OutlineSymbol

mutual

theorem kind_of_mem_flatten {file : String} : ∀ (o : OutlineSymbol) {parent : Option String} {s : IndexedSymbol},
    s ∈ flatten file parent o → ∃ kind : SymbolKind, s.kind = kind.text
  | .mk name kind detail startLine endLine children, _, s, member => by
    rw [flatten] at member
    obtain rfl | inside := List.mem_cons.mp member
    · exact ⟨kind, rfl⟩
    · exact kind_of_mem_flattenList children inside

theorem kind_of_mem_flattenList {file : String} : ∀ (os : List OutlineSymbol) {parent : Option String}
    {s : IndexedSymbol}, s ∈ flattenList file parent os → ∃ kind : SymbolKind, s.kind = kind.text
  | [], _, _, member => nomatch member
  | o :: os, _, s, member => by
    rw [flattenList] at member
    obtain own | later := List.mem_append.mp member
    · exact kind_of_mem_flatten o own
    · exact kind_of_mem_flattenList os later

end

end OutlineSymbol

theorem SymbolKind.colon_notMem_text (kind : SymbolKind) : ':' ∉ kind.text.toList := by
  cases kind <;> decide

namespace IndexData
variable {d : IndexData} {q : SymbolQuery} {short : Bool} {limit : Int} {chosen : List SymbolMatch}

/-- A match that is left out below the limit has the identity of one that is not. -/
theorem BestDistinct.exists_identity_eq (best : d.BestDistinct q short limit chosen)
    (below : (chosen.length : Int) < limit) {m : SymbolMatch} (found : d.Matches q short m) :
    ∃ n ∈ chosen, n.symbol.identity = m.symbol.identity := by
  by_contra absent
  have full := (best.complete m found fun mem => absent (List.mem_map.mp mem)).1
  omega

end IndexData

namespace IndexedSymbol

/-- Two symbols are the same just if they have one identity, and as many colons in their names and kinds. Where kinds
have no colons, as those of outlines, other symbols have one identity just if one runs into the other. So as long as no
kind and no name, or no kind and no file, has a colon, a search below its limit hides a match only for a result of its
name, kind and file. -/
theorem same_iff_identity_eq (s t : IndexedSymbol) (d : IndexData) (shortLength limit : Int) (query : String) :
    (s.Same t ↔ s.identity = t.identity ∧ colons s.name = colons t.name ∧ colons s.kind = colons t.kind) ∧
      (':' ∉ s.kind.toList → ':' ∉ t.kind.toList →
        (s.identity = t.identity ↔ s.Same t ∨ s.RunsInto t ∨ t.RunsInto s)) ∧
      (∀ (file : String) (parent : Option String) (outline : List OutlineSymbol),
        ∀ u ∈ OutlineSymbol.flattenList file parent outline, ':' ∉ u.kind.toList) ∧
      (1 ≤ limit → (SymbolQuery.ofText query).text ≠ "" → (∀ u ∈ d.flat, ':' ∉ u.kind.toList) →
        (∀ u ∈ d.flat, ':' ∉ u.name.toList) ∨ (∀ u ∈ d.flat, ':' ∉ u.file.toList) →
        ((d.search shortLength limit query).length : Int) < limit →
        ∀ m, d.Matches (SymbolQuery.ofText query) (IndexData.isShort shortLength (SymbolQuery.ofText query).text) m →
          ∃ u ∈ d.search shortLength limit query, u.Same m.symbol) := by
  refine ⟨⟨fun same => ?_, fun ⟨same, names, kinds⟩ => same_of_colons same names kinds⟩, identity_eq_iff_runs,
    fun file parent outline u mem => ?_, ?_⟩
  · exact ⟨same.identity_eq, congrArg colons same.1, congrArg colons same.2.1⟩
  · obtain ⟨kind, own⟩ := OutlineSymbol.kind_of_mem_flattenList outline mem
    rw [own]
    exact kind.colon_notMem_text
  · intro positive text kinds plain below m found
    have counted : max 1 limit.toNat = limit.toNat := by omega
    rw [IndexData.search_eq text, counted] at below ⊢
    rw [List.length_map] at below
    have best := d.bestDistinct_take (SymbolQuery.ofText query)
      (IndexData.isShort shortLength (SymbolQuery.ofText query).text) positive
    obtain ⟨n, own, same⟩ := best.exists_identity_eq below found
    have here := (best.sound n own).mem
    have there := found.mem
    refine ⟨n.symbol, List.mem_map_of_mem own, same_of_plain same (kinds _ here) (kinds _ there) ?_⟩
    exact plain.imp (fun all => ⟨all _ here, all _ there⟩) fun all => ⟨all _ here, all _ there⟩

/-- The second definition of a function is hidden, and the first one is a result. -/
theorem same_iff_identity_eq_namesakes :
    (SymbolQuery.ofText "save").text ≠ "" ∧
      ((IndexData.namesakes.search 3 50 "save").length : Int) < 50 ∧
      ∃ s t, IndexData.namesakes.flat[1]? = some s ∧ IndexData.namesakes.flat[2]? = some t ∧ s.Same t ∧
        ∃ u ∈ IndexData.namesakes.search 3 50 "save", u.Same t := by
  have text : (SymbolQuery.ofText "save").text ≠ "" := by decide +kernel
  have below : ((IndexData.namesakes.search 3 50 "save").length : Int) < 50 := by
    rw [IndexData.search, if_neg (by simpa using text), IndexData.ranked_namesakes]
    decide +kernel
  refine ⟨text, below, _, _, rfl, rfl, ?_⟩
  obtain ⟨same, -, -, hidden⟩ := same_iff_identity_eq
    { name := "save", kind := "Function", file := "b.py", startLine := 1, endLine := 2 }
    { name := "save", kind := "Function", file := "b.py", startLine := 4, endLine := 5 }
    IndexData.namesakes 3 50 "save"
  refine ⟨same.mpr ⟨by decide +kernel, rfl, rfl⟩, ?_⟩
  exact hidden (by decide) text (by decide +kernel) (.inl (by decide +kernel)) below ⟨1100, _, 2⟩
    ⟨rfl, by decide +kernel⟩

/-- A heading of one document, and in another document a heading that starts with it. -/
def collidingHeadings : IndexData where
  flat := [
    { name := "log", kind := "String", file := "b:String:c.md", startLine := 1, endLine := 1 },
    { name := "log:String:b", kind := "String", file := "c.md", startLine := 1, endLine := 1 }]

/-- The headings have one identity, and a search that both answer returns one of them. -/
theorem colliding_heading_hidden :
    ∃ s t, collidingHeadings.flat = [s, t] ∧ s.identity = t.identity ∧ ¬ s.Same t ∧
      (t.score? (SymbolQuery.ofText "log") (IndexData.isShort 3 (SymbolQuery.ofText "log").text)).isSome ∧
      collidingHeadings.search 3 50 "log" = [s] := by
  have text : (SymbolQuery.ofText "log").text ≠ "" := by decide +kernel
  have sorted : collidingHeadings.ranked (SymbolQuery.ofText "log")
      (IndexData.isShort 3 (SymbolQuery.ofText "log").text) = collidingHeadings.flat.filterMap fun s =>
        (s.score? (SymbolQuery.ofText "log") (IndexData.isShort 3 (SymbolQuery.ofText "log").text)).map (·, s) :=
    List.mergeSort_of_pairwise (by decide +kernel)
  refine ⟨_, _, rfl, by decide +kernel, ?_, by decide +kernel, ?_⟩
  · rintro ⟨name, -, -⟩
    exact absurd name (by decide)
  · rw [IndexData.search, if_neg (by simpa using text), sorted]
    decide +kernel

end IndexedSymbol
end CodeAgent
