import Mathlib.Data.List.Perm.Basic
import CodeAgent.Proofs.ToolCall.Fragments

/-! What breaks off a search for calls: a value that is beyond the limits of what is read. The candidates of a text of
fragments are those of its fragments, unless a fragment breaks a search off before a call of a later one. -/
namespace CodeAgent
open CodeAgent.Text

/-- A value is an integer of more digits than are read. -/
def Scalar.LongInteger (cs : List Char) : Prop :=
  ∃ numeral ∈ integer? (trimChars cs), Decimal.maxIntegerDigits < numeral.2.length

/-- A text holds a value that is beyond the limits of what is read: an integer of too many digits, or, as JSON,
one that is nested too deep. -/
inductive CallForm.BeyondLimits (cs : List Char) : CallForm → Prop
  | element {offset : Nat} {e : InvokeBlock.Element} {value : String × List Char} :
    (offset, e) ∈ findEach (InvokeBlock.element? InvokeBlock.invokeName) 0 cs →
      value ∈ InvokeBlock.parameters e.body → Scalar.LongInteger value.2 → BeyondLimits cs .invokeBlock
  | tag {offset : Nat} {t : CompactTag.Tag} {value : String × List Char} :
    (offset, t) ∈ findEach CompactTag.tag? 0 cs → value ∈ t.values → Scalar.LongInteger value.2 →
      BeyondLimits cs .compactTag
  | object {tail : List Char} {e : Json.ReadError} :
    tail <:+ cs → Json.readValue Json.maxDepth tail = .error e → e ≠ .malformed → BeyondLimits cs .embeddedJson
  | line {line : List Char × List Char} {rest : List Char} {e : Json.ReadError} : line ∈ lineRuns cs →
      dropStart? JsonCall.lineMark (line.1 ++ line.2) = some rest → Json.readChars? rest = .error e →
      e ≠ .malformed → BeyondLimits cs .markedLine

theorem Scalar.ofChars?_eq_none_iff {cs : List Char} : ofChars? (trimChars cs) = none ↔ LongInteger cs := by
  have word (text : List Char) (wordy : integer? text = none) (same : (trimChars cs == text) = true) :
      ¬ LongInteger cs := by
    rintro ⟨numeral, read, -⟩
    rw [eq_of_beq same, wordy] at read
    contradiction
  rw [ofChars?]
  split
  · next same => simpa using word _ (by decide) same
  split
  · next same => simpa using word _ (by decide) same
  split
  · next negative digits numeral =>
    have long : LongInteger cs ↔ Decimal.maxIntegerDigits < digits.length := by simp [LongInteger, numeral]
    rw [long]
    split
    · next many => simpa using many
    · next few => simpa using few
  · next numeral =>
    have short : ¬ LongInteger cs := by simp [LongInteger, numeral]
    split <;> simpa using short

theorem Markup.call?_eq_none_iff {name : String} {values : List (String × List Char)} :
    call? name values = none ↔ ∃ value ∈ values, Scalar.LongInteger value.2 := by
  rw [call?, Option.map_eq_none_iff]
  induction values with
  | nil => simp
  | cons value values ih =>
    rw [List.mapM_cons, List.exists_mem_cons_iff, ← ih, ← Scalar.ofChars?_eq_none_iff]
    cases read : Scalar.ofChars? (trimChars value.2) with
    | none => simp [ entry?, read]
    | some v =>
      have first : entry? value.1 value.2 = some (value.1, v, String.ofList (trimChars value.2)) := by
        rw [ entry?, read]
        rfl
      rw [first]
      cases values.mapM fun p => entry? p.1 p.2 <;> simp

namespace JsonCall

theorem exists_error_of_stop {cs : List Char} (stop : readingAt cs = .stop) :
    ∃ e, Json.readValue Json.maxDepth cs = .error e ∧ e ≠ .malformed := by
  unfold readingAt at stop
  split at stop
  · split at stop <;> cases stop
  · cases stop
  · next e severe failed => exact ⟨e, failed, severe⟩

theorem exists_error_of_stop_line {cs : List Char} (stop : readingOfLine cs = .stop) :
    ∃ e, Json.readChars? cs = .error e ∧ e ≠ .malformed := by
  unfold readingOfLine at stop
  split at stop
  · split at stop <;> cases stop
  · cases stop
  · cases stop
  · next e severe failed => exact ⟨e, failed, severe⟩

end JsonCall

namespace Finding

theorem exists_longInteger {name : String} {values : List (String × List Char)} (stop : ofMarkup name values = .stop) :
    ∃ value ∈ values, Scalar.LongInteger value.2 := by
  unfold ofMarkup at stop
  split at stop
  · split at stop
    · contradiction
    · next none => exact Markup.call?_eq_none_iff.mp none
  · contradiction

theorem exists_line_of_stops {offset : Nat} {lines : List (List Char × List Char)} (stops : Stops (ofLines offset lines)) :
    ∃ line ∈ lines, ofLine line = .stop := by
  induction lines generalizing offset with
  | nil => simp [ofLines, Stops] at stops
  | cons line lines ih =>
    rcases stops_cons.mp stops with stop | later
    · exact ⟨line, List.mem_cons_self, stop⟩
    · obtain ⟨line', mem, stop⟩ := ih later
      exact ⟨line', List.mem_cons_of_mem _ mem, stop⟩

end Finding

/-- A search breaks off over a text only because of a value that is beyond the limits. -/
theorem CallForm.BreaksOff.beyondLimits {form : CallForm} {cs : List Char} (breaks : form.BreaksOff cs) :
    form.BeyondLimits cs := by
  cases form with
  | invokeBlock =>
    obtain ⟨_, mem, stop⟩ := breaks
    obtain ⟨⟨offset, e⟩, found, rfl⟩ := List.mem_map.mp mem
    obtain ⟨value, held, long⟩ := Finding.exists_longInteger stop
    exact .element found held long
  | compactTag =>
    obtain ⟨_, mem, stop⟩ := breaks
    obtain ⟨⟨offset, t⟩, found, rfl⟩ := List.mem_map.mp mem
    obtain ⟨value, held, long⟩ := Finding.exists_longInteger stop
    exact .tag found held long
  | embeddedJson =>
    obtain ⟨_, mem, stop⟩ := breaks
    obtain ⟨tail, rest, suffix, found⟩ :=
      exists_suffix_of_mem_findEach (fun read => (Finding.shortens_atBrace? read).1) mem
    rw [stop] at found
    unfold Finding.atBrace? at found
    split at found
    · split at found
      · cases found
      · cases found
      · next halt =>
        obtain ⟨e, failed, severe⟩ := JsonCall.exists_error_of_stop halt
        exact .object suffix failed severe
    · cases found
  | markedLine =>
    obtain ⟨line, mem, stop⟩ := Finding.exists_line_of_stops breaks
    unfold Finding.ofLine at stop
    split at stop
    · cases stop
    · next rest marked =>
      split at stop
      · cases stop
      · cases stop
      · next halt =>
        obtain ⟨e, failed, severe⟩ := JsonCall.exists_error_of_stop_line halt
        exact .line mem marked failed severe

end CodeAgent

namespace CodeAgent
open CodeAgent.Text Finding

namespace CallForm

/-- The rank of a form among all forms. -/
def rank : CallForm → Nat
  | invokeBlock => 0
  | compactTag => 1
  | embeddedJson => 2
  | markedLine => 3

/-- The calls that each fragment alone has in a form, at their offsets in the whole text. -/
def union (form : CallForm) (fs : List (List Char)) : List (Nat × ToolCall) :=
  (placedFrom 0 fs).flatMap fun p => (form.extract p.2).map (shift p.1)

/-- The calls of a text of fragments in a form are those of each fragment alone. -/
def Isolates (form : CallForm) (fs : List (List Char)) : Prop :=
  (form.extract (linesOf fs)).Perm (form.union fs)

theorem findingsFrom_eq_shift (form : CallForm) (offset : Nat) (cs : List Char) :
    form.findingsFrom offset cs = (form.findingsFrom 0 cs).map (shift offset) := by
  rw [← findingsFrom_shift, Nat.zero_add]

theorem callsUntilStop_findingsFrom (form : CallForm) (offset : Nat) (cs : List Char) :
    callsUntilStop (form.findingsFrom offset cs) = (form.extract cs).map (shift offset) := by
  rw [findingsFrom_eq_shift, callsUntilStop_shift, extract_eq]

theorem stops_findingsFrom (form : CallForm) (offset : Nat) (cs : List Char) :
    Stops (form.findingsFrom offset cs) ↔ form.BreaksOff cs := by
  rw [findingsFrom_eq_shift, stops_shift, BreaksOff]

theorem map_snd_placedFrom (offset : Nat) (fs : List (List Char)) : (placedFrom offset fs).map (·.2) = fs := by
  induction fs generalizing offset with
  | nil => rfl
  | cons f fs ih => rw [placedFrom, List.map_cons, ih]

/-- The search for a form leaves nothing out exactly if no call of the form comes after a fragment over which
it breaks off. -/
theorem isolates_iff (form : CallForm) {fs : List (List Char)} (fragments : ∀ f ∈ fs, IsFragment f)
    (closes : form = .invokeBlock → ∀ f ∈ fs, InvokeBlock.ClosesElements f) :
    form.Isolates fs ↔ fs.Pairwise fun f g => form.BreaksOff f → form.extract g = [] := by
  have parts := callsUntilStop_flatten_perm_iff ((placedFrom 0 fs).map fun p => form.findingsFrom p.1 p.2)
  rw [List.flatMap_map, List.pairwise_map, ← List.flatMap_def] at parts
  simp only [callsUntilStop_findingsFrom, List.map_eq_nil_iff] at parts
  have pairs : (placedFrom 0 fs).Pairwise (fun p q => Stops (form.findingsFrom p.1 p.2) → form.extract q.2 = []) ↔
      fs.Pairwise fun f g => form.BreaksOff f → form.extract g = [] := by
    conv_rhs => rw [← map_snd_placedFrom 0 fs, List.pairwise_map]
    simp only [stops_findingsFrom]
  rw [Isolates, extract_eq, form.findingsFrom_linesOf fragments closes, union, parts, pairs]

end CallForm

namespace Candidate

/-- A candidate in a text that starts at an offset of another text. -/
def shift (distance : Nat) (c : Candidate) : Candidate := { c with offset := c.offset + distance }

/-- The candidates that each fragment alone has, at their offsets in the whole text. -/
def union (fs : List (List Char)) : List Candidate :=
  (placedFrom 0 fs).flatMap fun p => (all CallForm.all p.2).map (shift p.1)

/-- A call found by a form. -/
def ofForm (form : CallForm) (p : Nat × ToolCall) : Candidate := ⟨p.1, form.rank, p.2⟩

theorem filter_found (form : CallForm) (cs : List Char) :
    (found (CallForm.all.map CallForm.extractor) cs).filter (·.rank == form.rank) =
      (form.extract cs).map (ofForm form) := by
  cases form <;> simp [found, CallForm.all, CallForm.extractor, List.filter_map, Function.comp_def, CallForm.rank, ofForm]

theorem exists_form {cs : List Char} {c : Candidate} (mem : c ∈ all CallForm.all cs) :
    ∃ form : CallForm, c.rank = form.rank := by
  have listed : c ∈ found (CallForm.all.map CallForm.extractor) cs := List.mem_mergeSort.mp mem
  simp only [found, CallForm.all, List.map_cons, List.map_nil, List.zipIdx_cons, List.zipIdx_nil, List.flatMap_cons,
    List.flatMap_nil, List.mem_append, List.mem_map, List.not_mem_nil, or_false] at listed
  rcases listed with ⟨_, -, rfl⟩ | ⟨_, -, rfl⟩ | ⟨_, -, rfl⟩ | ⟨_, -, rfl⟩
  · exact ⟨.invokeBlock, rfl⟩
  · exact ⟨.compactTag, rfl⟩
  · exact ⟨.embeddedJson, rfl⟩
  · exact ⟨.markedLine, rfl⟩

/-- Candidates are the same if those of each form are. -/
theorem perm_iff_forms {cs ds : List Candidate} (formed : ∀ c ∈ cs ++ ds, ∃ form : CallForm, c.rank = form.rank) :
    cs.Perm ds ↔ ∀ form : CallForm, (cs.filter (·.rank == form.rank)).Perm (ds.filter (·.rank == form.rank)) := by
  classical
  refine ⟨fun same form => same.filter _, fun same => List.perm_iff_count.mpr fun c => ?_⟩
  by_cases mem : c ∈ cs ++ ds
  · obtain ⟨form, rank⟩ := formed c mem
    have count := (same form).count_eq c
    rwa [List.count_filter (by simpa using rank), List.count_filter (by simpa using rank)] at count
  · rw [List.mem_append, not_or] at mem
    rw [List.count_eq_zero_of_not_mem mem.1, List.count_eq_zero_of_not_mem mem.2]

theorem filter_union (form : CallForm) (fs : List (List Char)) :
    ((union fs).filter (·.rank == form.rank)).Perm ((form.union fs).map (ofForm form)) := by
  rw [union, CallForm.union, List.filter_flatMap, List.map_flatMap]
  refine List.Perm.flatMap_left _ fun p _ => ?_
  rw [List.filter_map]
  have sorted := (List.mergeSort_perm (found (CallForm.all.map CallForm.extractor) p.2) before).filter
    (·.rank == form.rank)
  rw [filter_found] at sorted
  have moved := sorted.map (shift p.1)
  rw [List.map_map] at moved ⊢
  exact moved

theorem perm_union_iff (fs : List (List Char)) :
    (all CallForm.all (linesOf fs)).Perm (union fs) ↔ ∀ form : CallForm, form.Isolates fs := by
  rw [perm_iff_forms]
  · refine forall_congr' fun form => ?_
    have sorted := (List.mergeSort_perm (found (CallForm.all.map CallForm.extractor) (linesOf fs)) before).filter
      (·.rank == form.rank)
    rw [filter_found] at sorted
    have injective : Function.Injective (ofForm form) := by
      rintro ⟨o, c⟩ ⟨o', c'⟩ same
      cases same
      rfl
    rw [CallForm.Isolates, ← List.map_perm_map_iff injective]
    constructor
    · exact fun same => sorted.symm.trans (same.trans (filter_union form fs))
    · exact fun same => sorted.trans (same.trans (filter_union form fs).symm)
  · intro c mem
    rcases List.mem_append.mp mem with whole | alone
    · exact exists_form whole
    · obtain ⟨p, -, moved⟩ := List.mem_flatMap.mp alone
      obtain ⟨c, found, rfl⟩ := List.mem_map.mp moved
      obtain ⟨form, rank⟩ := exists_form found
      exact ⟨form, rank⟩

/-- The candidates of a text of fragments are those that each fragment alone has, exactly if this is so for each
form. For every form but elements, and for elements if no fragment leaves one open, it is so exactly if no call
of the form comes after a fragment over which its search breaks off, which needs a value beyond the limits. A
fragment that is malformed in any other way takes no call of another one away. -/
theorem fragments_isolated_iff (fs : List (List Char)) (fragments : ∀ f ∈ fs, IsFragment f) :
    ((all CallForm.all (linesOf fs)).Perm (union fs) ↔ ∀ form : CallForm, form.Isolates fs) ∧
      (∀ form : CallForm, (form = .invokeBlock → ∀ f ∈ fs, InvokeBlock.ClosesElements f) →
        (form.Isolates fs ↔ fs.Pairwise fun f g => form.BreaksOff f → form.extract g = [])) ∧
      ∀ (form : CallForm) (f : List Char), form.BreaksOff f → form.BeyondLimits f :=
  ⟨perm_union_iff fs, fun form closes => form.isolates_iff fragments closes, fun _ _ breaks => breaks.beyondLimits⟩

/-- A call after an object that is malformed. -/
theorem fragments_isolated_iff_malformed_object :
    let fs := ["\x7b\"name\": todo_list\x7d".toList, "<todo_list/>".toList]
    (∀ f ∈ fs, IsFragment f) ∧ (all CallForm.all (linesOf fs)).Perm (union fs) := by
  have fragments : ∀ f ∈ ["\x7b\"name\": todo_list\x7d".toList, "<todo_list/>".toList], IsFragment f := by
    rintro f mem
    rcases List.mem_cons.mp mem with rfl | mem
    · exact show IsFragment ('\x7b' :: ("\"name\": todo_list".toList ++ ['\x7d'])) from .object (by decide)
    · obtain rfl := List.mem_singleton.mp mem
      exact .tag (t := ⟨"todo_list".toList, [], []⟩) rfl
  obtain ⟨whole, each, -⟩ := fragments_isolated_iff _ fragments
  refine ⟨fragments, whole.mpr fun form => (each form fun _ => by decide +kernel).mpr ?_⟩
  rw [List.pairwise_pair]
  intro breaks
  have runs : ¬ form.BreaksOff "\x7b\"name\": todo_list\x7d".toList := by
    cases form <;> decide +kernel
  exact absurd breaks runs

end Candidate

/-! ### A fragment that takes a call away -/

theorem Scalar.longInteger_ones {n : Nat} (long : Decimal.maxIntegerDigits < n) :
    LongInteger (List.replicate n '1') := by
  have trimmed : trimChars (List.replicate n '1') = List.replicate n '1' := by
    simp [trimChars, trimBy, isBlank]
  have numeral : integer? (List.replicate n '1') = some (false, List.replicate n '1') := by
    obtain ⟨n, rfl⟩ := Nat.exists_eq_add_one_of_ne_zero (Nat.ne_zero_of_lt long)
    have unsigned : dropSign (List.replicate (n + 1) '1') = (false, List.replicate (n + 1) '1') := by
      rw [List.replicate_succ]
      rfl
    have digit : isDigitChar '1' = true := by decide
    rw [integer?, unsigned]
    simp [digit]
  exact ⟨(false, List.replicate n '1'), by rw [trimmed, numeral]; rfl, by simpa using long⟩

/-- A tag with a value that is an integer of too many digits breaks the search for tags off. -/
theorem CompactTag.breaksOff_text (s : Markup.Spacing) (spaced : s.before ≠ []) (tool : Tool)
    {values : List (String × String)} (keys : ∀ p ∈ values, IsKey p.1)
    (long : ∃ p ∈ values, Scalar.LongInteger p.2.toList) : CallForm.compactTag.BreaksOff (text s tool.name values) := by
  have unread : Markup.call? tool.name (values.map fun p => (p.1, p.2.toList)) = none := by
    obtain ⟨p, mem, long⟩ := long
    exact Markup.call?_eq_none_iff.mpr ⟨_, List.mem_map_of_mem mem, long⟩
  have stop : ofMarkup tool.name (values.map fun p => (p.1, p.2.toList)) = .stop := by
    rw [ofMarkup, if_pos (by rw [Tool.isAllowed, Tool.ofName?_name]; rfl), unread]
  refine ⟨(0, .stop), ?_, rfl⟩
  simp only [CallForm.findingsFrom]
  rw [findEach_hit (tag?_text s spaced tool keys) (by simp [text]), List.map_cons, String.ofList_toList,
    values_attributesText s spaced _ _ keys, stop]
  exact List.mem_cons_self

/-- A todo item is completed under an identifier of 4301 digits, and the items are listed on the next line. The
listing is a candidate of its own line, but the whole text has none. -/
theorem Candidate.fragment_hidden_by_long_integer :
    let spacing : Markup.Spacing := ⟨[' '], [], List.forall_mem_singleton.mpr rfl, List.forall_mem_nil _⟩
    let long := CompactTag.text spacing "todo_complete" [("id", String.ofList (List.replicate 4301 '1'))]
    let fs := [long, "<todo_list/>".toList]
    (∀ f ∈ fs, IsFragment f) ∧ ¬ (all CallForm.all (linesOf fs)).Perm (union fs) := by
  intro spacing long fs
  have spaced : spacing.before ≠ [] := by simp [spacing]
  have keys : ∀ p ∈ [("id", String.ofList (List.replicate 4301 '1'))], CompactTag.IsKey p.1 := by
    rintro p mem
    obtain rfl := List.mem_singleton.mp mem
    exact ⟨by decide, List.all_eq_true.mp (by decide)⟩
  have unkeyed : ∀ p ∈ ([] : List (String × String)), CompactTag.IsKey p.1 := by simp
  have listing : CompactTag.text spacing Tool.todoList.name [] = "<todo_list/>".toList := rfl
  have fragments : ∀ f ∈ fs, IsFragment f := by
    rintro f mem
    rcases List.mem_cons.mp mem with rfl | mem
    · exact .tag (CompactTag.tag?_text spacing spaced .todoComplete keys)
    · obtain rfl := List.mem_singleton.mp mem
      have read := CompactTag.tag?_text spacing spaced .todoList unkeyed
      rw [listing] at read
      exact .tag read
  refine ⟨fragments, fun same => ?_⟩
  have isolated := (perm_union_iff fs).mp same .compactTag
  rw [CallForm.isolates_iff .compactTag fragments nofun] at isolated
  have many : Scalar.LongInteger (String.ofList (List.replicate 4301 '1')).toList := by
    rw [String.toList_ofList]
    exact Scalar.longInteger_ones (by decide)
  have breaks : CallForm.compactTag.BreaksOff long :=
    CompactTag.breaksOff_text spacing spaced .todoComplete keys ⟨_, List.mem_cons_self, many⟩
  have lost := (List.pairwise_cons.mp isolated).1 "<todo_list/>".toList List.mem_cons_self breaks
  have made : Markup.call? Tool.todoList.name [] = some { name := "todo_list" } := rfl
  have found := CompactTag.extract_text spacing spaced unkeyed made
  rw [listing] at found
  rw [CallForm.extract, found] at lost
  contradiction

end CodeAgent
