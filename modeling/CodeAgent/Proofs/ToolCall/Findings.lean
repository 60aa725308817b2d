import CodeAgent.Proofs.Text.Search
import CodeAgent.ToolCall.Extractor

/-! What the forms of tool calls find in a text, told also of what makes a search break off. -/
namespace CodeAgent
open CodeAgent.Text

/-- What a search comes upon: a call, nothing of use, or something that breaks the search off. -/
inductive Finding where
  | call (call : ToolCall)
  | nothing
  | stop

namespace Finding

/-- The calls found before a search breaks off. -/
def callsUntilStop : List (Nat × Finding) → List (Nat × ToolCall)
  | [] => []
  | (offset, .call c) :: more => (offset, c) :: callsUntilStop more
  | (_, .nothing) :: more => callsUntilStop more
  | (_, .stop) :: _ => []

/-- What a tag or an element with decoded values is. -/
def ofMarkup (name : String) (values : List (String × List Char)) : Finding :=
  if Tool.isAllowed name then
    match Markup.call? name values with
    | some c => .call c
    | none => .stop
  else .nothing

/-- What a brace of the text starts, for a search that passes over what is of no use. -/
def atBrace? (cs : List Char) : Option (Finding × List Char) :=
  match cs with
  | '\x7b' :: rest =>
    match JsonCall.readingAt cs with
    | .call c rest => some (.call c, rest)
    | .other => none
    | .stop => some (.stop, rest)
  | _ => none

/-- What a line is, with the characters that end it. -/
def ofLine (line : List Char × List Char) : Finding :=
  match dropStart? JsonCall.lineMark (line.1 ++ line.2) with
  | none => .nothing
  | some rest => match JsonCall.readingOfLine rest with
    | .call c _ => .call c
    | .other => .nothing
    | .stop => .stop

/-- What the lines of a text are, each with its offset. -/
def ofLines (offset : Nat) : List (List Char × List Char) → List (Nat × Finding)
  | [] => []
  | line :: more => (offset, ofLine line) :: ofLines (offset + line.1.length + line.2.length) more

theorem callsOf_eq {α : Type} (name : α → String) (values : α → List (String × List Char))
    (found : List (Nat × α)) : Markup.callsOf name values found =
      callsUntilStop (found.map fun p => (p.1, ofMarkup (name p.2) (values p.2))) := by
  induction found with
  | nil => rw [Markup.callsOf, List.map_nil, callsUntilStop]
  | cons p found ih =>
    obtain ⟨offset, a⟩ := p
    rw [Markup.callsOf, List.map_cons, ofMarkup]
    dsimp only
    split
    · cases Markup.call? (name a) (values a) with
      | some c =>
        dsimp only
        rw [callsUntilStop, ih]
      | none =>
        dsimp only
        rw [callsUntilStop]
    · rw [callsUntilStop, ih]

theorem embeddedFrom_eq (offset : Nat) (cs : List Char) :
    JsonCall.embeddedFrom offset cs = callsUntilStop (findEach atBrace? offset cs) := by
  fun_induction JsonCall.embeddedFrom offset cs with
  | case1 => rw [findEach, callsUntilStop]
  | case2 offset c cs brace call rest read shorter ih =>
    obtain rfl := eq_of_beq brace
    have found : atBrace? ('{' :: cs) = some (.call call, rest) := by
      simp only [atBrace?, read]
    rw [findEach_hit found shorter, callsUntilStop, ih]
    rfl
  | case3 offset c cs brace call rest read longer ih =>
    obtain rfl := eq_of_beq brace
    have found : atBrace? ('\x7b' :: cs) = some (.call call, rest) := by
      simp only [atBrace?, read]
    rw [findEach, found]
    dsimp only
    rw [if_neg longer, ih]
  | case4 offset c cs brace read ih =>
    obtain rfl := eq_of_beq brace
    have missed : atBrace? ('{' :: cs) = none := by
      simp only [atBrace?, read]
    rw [findEach_miss missed, ih]
  | case5 offset c cs brace read =>
    obtain rfl := eq_of_beq brace
    have found : atBrace? ('{' :: cs) = some (.stop, cs) := by
      simp only [atBrace?, read]
    rw [findEach_hit found (Nat.lt_succ_self _), callsUntilStop]
  | case6 offset c cs other ih =>
    have missed : atBrace? (c :: cs) = none := by
      unfold atBrace?
      split
      · next start =>
        cases start
        contradiction
      · rfl
    rw [findEach_miss missed, ih]

theorem marksFrom_eq (offset : Nat) (lines : List (List Char × List Char)) :
    JsonCall.marksFrom offset lines = callsUntilStop (ofLines offset lines) := by
  induction lines generalizing offset with
  | nil => rw [JsonCall.marksFrom, ofLines, callsUntilStop]
  | cons line lines ih =>
    obtain ⟨text, ending⟩ := line
    rw [JsonCall.marksFrom, ofLines, ofLine]
    dsimp only
    cases dropStart? JsonCall.lineMark (text ++ ending) with
    | none =>
      dsimp only
      rw [callsUntilStop, ih]
    | some rest =>
      dsimp only
      cases JsonCall.readingOfLine rest with
      | call c _ =>
        dsimp only
        rw [callsUntilStop, ih]
      | other =>
        dsimp only
        rw [callsUntilStop, ih]
      | stop =>
        dsimp only
        rw [callsUntilStop]

instance (finding : Finding) : Decidable (finding = .stop) :=
  match finding with
  | .stop => .isTrue rfl
  | .call _ | .nothing => .isFalse nofun

/-- A search breaks off. -/
def Stops (found : List (Nat × Finding)) : Prop := ∃ p ∈ found, p.2 = .stop

instance (found : List (Nat × Finding)) : Decidable (Stops found) :=
  inferInstanceAs (Decidable (∃ p ∈ found, p.2 = .stop))

theorem stops_cons {p : Nat × Finding} {found : List (Nat × Finding)} :
    Stops (p :: found) ↔ p.2 = .stop ∨ Stops found := by simp [Stops]

theorem callsUntilStop_append_of_stops {found : List (Nat × Finding)} (stops : Stops found)
    (later : List (Nat × Finding)) : callsUntilStop (found ++ later) = callsUntilStop found := by
  induction found with
  | nil => exact absurd stops (by simp [Stops])
  | cons p found ih =>
    obtain ⟨offset, finding⟩ := p
    cases finding with
    | call c => rw [List.cons_append, callsUntilStop, callsUntilStop, ih (by simpa [stops_cons] using stops)]
    | nothing => rw [List.cons_append, callsUntilStop, callsUntilStop, ih (by simpa [stops_cons] using stops)]
    | stop => rw [List.cons_append, callsUntilStop, callsUntilStop]

theorem callsUntilStop_append_of_not_stops {found : List (Nat × Finding)} (runs : ¬ Stops found)
    (later : List (Nat × Finding)) :
    callsUntilStop (found ++ later) = callsUntilStop found ++ callsUntilStop later := by
  induction found with
  | nil => rw [callsUntilStop, List.nil_append, List.nil_append]
  | cons p found ih =>
    obtain ⟨offset, finding⟩ := p
    rw [stops_cons, not_or] at runs
    cases finding with
    | call c => rw [List.cons_append, callsUntilStop, callsUntilStop, ih runs.2, List.cons_append]
    | nothing => rw [List.cons_append, callsUntilStop, callsUntilStop, ih runs.2]
    | stop => exact absurd rfl runs.1

/-- Searching the parts of a text one after another gives the calls of all parts exactly if no call comes
after a part that breaks the search off. -/
theorem callsUntilStop_flatten_perm_iff (parts : List (List (Nat × Finding))) :
    (callsUntilStop parts.flatten).Perm (parts.flatMap callsUntilStop) ↔
      parts.Pairwise fun part later => Stops part → callsUntilStop later = [] := by
  induction parts with
  | nil => simp [callsUntilStop]
  | cons part parts ih =>
    rw [List.flatten_cons, List.flatMap_cons, List.pairwise_cons]
    by_cases stops : Stops part
    · rw [callsUntilStop_append_of_stops stops]
      have none : (callsUntilStop part).Perm (callsUntilStop part ++ parts.flatMap callsUntilStop) ↔
          ∀ later ∈ parts, callsUntilStop later = [] := by
        rw [← List.flatMap_eq_nil_iff]
        refine ⟨fun same => ?_, fun none => by rw [none, List.append_nil]⟩
        have lengths := same.length_eq
        rw [List.length_append] at lengths
        exact List.length_eq_zero_iff.mp (by omega)
      rw [none]
      refine ⟨fun quiet => ⟨fun later mem _ => quiet later mem, ?_⟩, fun h later mem => h.1 later mem stops⟩
      exact List.pairwise_of_forall_mem_list fun _ _ later mem _ => quiet later mem
    · rw [callsUntilStop_append_of_not_stops stops, List.perm_append_left_iff, ih]
      exact ⟨fun later => ⟨fun _ _ stop => absurd stop stops, later⟩, fun h => h.2⟩

/-- Something found, at an offset that is moved. -/
def shift {α : Type} (distance : Nat) (p : Nat × α) : Nat × α := (p.1 + distance, p.2)

theorem stops_shift {distance : Nat} {found : List (Nat × Finding)} : Stops (found.map (shift distance)) ↔ Stops found := by
  constructor
  · rintro ⟨_, mem, stop⟩
    obtain ⟨p, found, rfl⟩ := List.mem_map.mp mem
    exact ⟨p, found, stop⟩
  · rintro ⟨p, found, stop⟩
    exact ⟨shift distance p, List.mem_map_of_mem found, stop⟩

theorem callsUntilStop_shift (distance : Nat) (found : List (Nat × Finding)) :
    callsUntilStop (found.map (shift distance)) = (callsUntilStop found).map (shift distance) := by
  induction found with
  | nil => simp [callsUntilStop]
  | cons p found ih =>
    obtain ⟨offset, finding⟩ := p
    cases finding <;> simp [shift, callsUntilStop] at ih ⊢ <;> exact ih

theorem findEach_shift {α : Type} (match? : List Char → Option (α × List Char)) (distance offset : Nat)
    (cs : List Char) : findEach match? (offset + distance) cs = (findEach match? offset cs).map (shift distance) := by
  fun_induction findEach match? offset cs with
  | case1 => rw [findEach, List.map_nil]
  | case2 offset c cs missed ih => rw [findEach_miss missed, ← ih, Nat.add_right_comm]
  | case3 offset c cs a rest found shorter ih =>
    rw [findEach_hit found shorter, List.map_cons, ← ih, Nat.add_right_comm]
    rfl
  | case4 offset c cs a rest found longer ih =>
    rw [findEach, found]
    dsimp only
    rw [if_neg longer, ← ih, Nat.add_right_comm]

theorem ofLines_shift (distance offset : Nat) (lines : List (List Char × List Char)) :
    ofLines (offset + distance) lines = (ofLines offset lines).map (shift distance) := by
  induction lines generalizing offset with
  | nil => rfl
  | cons line lines ih =>
    rw [ofLines, ofLines, List.map_cons, ← ih]
    simp only [shift, List.cons.injEq, true_and]
    congr 1
    omega

end Finding

namespace CallForm
open Finding

/-- What a search for calls in a form comes upon in a text, at offsets from a given one on. -/
def findingsFrom (offset : Nat) (cs : List Char) : CallForm → List (Nat × Finding)
  | invokeBlock => (findEach (InvokeBlock.element? InvokeBlock.invokeName) offset cs).map fun p =>
      (p.1, .ofMarkup (String.ofList p.2.key) (InvokeBlock.parameters p.2.body))
  | compactTag => (findEach CompactTag.tag? offset cs).map fun p =>
      (p.1, .ofMarkup (String.ofList p.2.name) p.2.values)
  | embeddedJson => findEach atBrace? offset cs
  | markedLine => ofLines offset (lineRuns cs)

theorem extract_eq (form : CallForm) (cs : List Char) :
    form.extract cs = callsUntilStop (form.findingsFrom 0 cs) := by
  cases form with
  | invokeBlock => exact callsOf_eq _ _ _
  | compactTag => exact callsOf_eq _ _ _
  | embeddedJson => exact embeddedFrom_eq 0 cs
  | markedLine => exact marksFrom_eq 0 (lineRuns cs)

theorem findingsFrom_shift (form : CallForm) (distance offset : Nat) (cs : List Char) :
    form.findingsFrom (offset + distance) cs = (form.findingsFrom offset cs).map (shift distance) := by
  cases form with
  | invokeBlock | compactTag =>
    simp only [findingsFrom, findEach_shift, List.map_map]
    rfl
  | embeddedJson => exact findEach_shift _ _ _ _
  | markedLine => exact ofLines_shift _ _ _

/-- The search for calls in a form breaks off over a text. -/
def BreaksOff (form : CallForm) (cs : List Char) : Prop := Stops (form.findingsFrom 0 cs)

instance (form : CallForm) (cs : List Char) : Decidable (form.BreaksOff cs) :=
  inferInstanceAs (Decidable (Stops _))

end CallForm

end CodeAgent
