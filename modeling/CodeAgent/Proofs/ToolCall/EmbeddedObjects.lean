import CodeAgent.Proofs.ToolCall.IsolatedFragments

/-! Which of the objects in a text are read as calls, where objects stand inside each other. The search yields from
left to right those that are calls and lie in no call that it yielded before: inside a call nothing more is read, and
an object that is no call hides nothing. -/
namespace CodeAgent.JsonCall

private theorem getElem?_of_drop {text cs : List Char} {offset : Nat} {c : Char} (here : text.drop offset = c :: cs) :
    text[offset]? = some c := by
  rw [← List.head?_drop, here, List.head?_cons]

private theorem drop_succ_of_drop {text cs : List Char} {offset : Nat} {c : Char}
    (here : text.drop offset = c :: cs) : text.drop (offset + 1) = cs := by
  rw [← List.drop_drop, here, List.drop_one, List.tail_cons]

/-- At an offset of a text a brace starts a value, which ends before another offset. -/
structure ReadsAs (text : List Char) (start stop : Nat) (value : Json) : Prop where
  brace : text[start]? = some '{'
  stop_le : stop ≤ text.length
  reading : Json.readValue Json.maxDepth (text.drop start) = .ok (value, text.drop stop)

/-- A part of a text, from one offset to before another, with the call that it is read as. -/
structure Span where
  start : Nat
  stop : Nat
  call : ToolCall

namespace Span

/-- A value is read where the part stands, and it describes the call. -/
def Acceptable (text : List Char) (s : Span) : Prop :=
  ∃ value, ReadsAs text s.start s.stop value ∧ ofJson value = .ok s.call

/-- An offset lies in the part. -/
def Covers (s : Span) (offset : Nat) : Prop := s.start ≤ offset ∧ offset < s.stop

variable {text : List Char}

namespace Acceptable
variable {s : Span}

theorem brace (acceptable : s.Acceptable text) : text[s.start]? = some '{' :=
  let ⟨_, reads, _⟩ := acceptable
  reads.brace

theorem stop_le (acceptable : s.Acceptable text) : s.stop ≤ text.length :=
  let ⟨_, reads, _⟩ := acceptable
  reads.stop_le

theorem start_lt_length (acceptable : s.Acceptable text) : s.start < text.length :=
  (List.getElem?_eq_some_iff.mp acceptable.brace).1

theorem readingAt_eq (acceptable : s.Acceptable text) :
    readingAt (text.drop s.start) = .call s.call (text.drop s.stop) := by
  obtain ⟨value, reads, isCall⟩ := acceptable
  rw [readingAt, reads.reading]
  dsimp only
  rw [isCall]

theorem start_lt_stop (acceptable : s.Acceptable text) : s.start < s.stop := by
  obtain ⟨value, reads, -⟩ := acceptable
  obtain ⟨used, split, isValue⟩ := Json.readValue_local reads.reading
  have filled := List.length_pos_iff.mpr isValue.filled
  have lengths := congrArg List.length split
  rw [List.length_append, List.length_drop, List.length_drop] at lengths
  omega

/-- The offset where a call starts tells where it ends, and the call. -/
theorem eq_of_start {a b : Span} (acceptable : a.Acceptable text) (acceptable' : b.Acceptable text)
    (same : a.start = b.start) : a = b := by
  have readings := acceptable.readingAt_eq
  rw [same, acceptable'.readingAt_eq] at readings
  injection readings with call rest
  have lengths := congrArg List.length rest
  rw [List.length_drop, List.length_drop] at lengths
  have within := acceptable.stop_le
  have within' := acceptable'.stop_le
  obtain ⟨start, stop, call⟩ := a
  obtain ⟨start', stop', call'⟩ := b
  dsimp only at *
  obtain rfl : stop = stop' := by omega
  subst same call
  rfl

end Acceptable

/-- A brace that starts a call starts a span. -/
theorem exists_of_call {start : Nat} {cs rest : List Char} {call : ToolCall}
    (here : text.drop start = '{' :: cs) (read : readingAt ('{' :: cs) = .call call rest) :
    let s : Span := ⟨start, start + (cs.length + 1 - rest.length), call⟩
    s.Acceptable text ∧ text.drop s.stop = rest := by
  obtain ⟨value, reading⟩ := exists_value_of_call read
  obtain ⟨used, split, -⟩ := Json.readValue_local reading
  have lengths := congrArg List.length split
  rw [List.length_cons, List.length_append] at lengths
  have after : text.drop (start + (cs.length + 1 - rest.length)) = rest := by
    rw [← List.drop_drop, here, split, lengths, Nat.add_sub_cancel, List.drop_left]
  have total := congrArg List.length here
  rw [List.length_drop, List.length_cons] at total
  refine ⟨⟨value, ⟨getElem?_of_drop here, by dsimp only; omega, ?_⟩, ?_⟩, after⟩
  · dsimp only
    rw [here, after, reading]
  · rw [readingAt, reading] at read
    dsimp only at read ⊢
    cases isCall : ofJson value with
    | ok found =>
      rw [isCall] at read
      cases read
      rfl
    | error e =>
      rw [isCall] at read
      contradiction

end Span

/-! ### The search from an offset on -/

/-- What the search yields from an offset on: spans one after the other, and each one that stands there is yielded or
starts inside a span that is. -/
structure Yields (text : List Char) (offset : Nat) (spans : List Span) : Prop where
  acceptable : ∀ s ∈ spans, s.Acceptable text
  from_offset : ∀ s ∈ spans, offset ≤ s.start
  apart : spans.Pairwise fun a b => a.stop ≤ b.start
  complete : ∀ s : Span, s.Acceptable text → offset ≤ s.start →
    s ∈ spans ∨ ∃ a ∈ spans, a.start < s.start ∧ s.start < a.stop

namespace Yields
variable {text : List Char} {offset : Nat} {spans : List Span}

theorem nil (ended : text.drop offset = []) : Yields text offset [] where
  acceptable := nofun
  from_offset := nofun
  apart := .nil
  complete s acceptable later := by
    have within := acceptable.start_lt_length
    have short := List.drop_eq_nil_iff.mp ended
    omega

/-- Nothing starts at the offset. -/
theorem skip (none : ∀ s : Span, s.Acceptable text → s.start ≠ offset) (yields : Yields text (offset + 1) spans) :
    Yields text offset spans where
  acceptable := yields.acceptable
  from_offset s mem := Nat.le_of_succ_le (yields.from_offset s mem)
  apart := yields.apart
  complete s acceptable later :=
    yields.complete s acceptable (Nat.lt_of_le_of_ne later (none s acceptable).symm)

/-- A span starts at the offset: those that start inside it are passed over. -/
theorem cons {s : Span} (acceptable : s.Acceptable text) (yields : Yields text s.stop spans) :
    Yields text s.start (s :: spans) where
  acceptable := List.forall_mem_cons.mpr ⟨acceptable, yields.acceptable⟩
  from_offset := List.forall_mem_cons.mpr
    ⟨Nat.le_refl _, fun b mem => Nat.le_trans (Nat.le_of_lt acceptable.start_lt_stop) (yields.from_offset b mem)⟩
  apart := List.pairwise_cons.mpr ⟨yields.from_offset, yields.apart⟩
  complete b acceptable' later := by
    rcases Nat.eq_or_lt_of_le later with same | inside
    · exact .inl (acceptable'.eq_of_start acceptable same.symm ▸ List.mem_cons_self)
    · rcases Nat.lt_or_ge b.start s.stop with covered | beyond
      · exact .inr ⟨s, List.mem_cons_self, inside, covered⟩
      · rcases yields.complete b acceptable' beyond with mem | ⟨a, mem, inside'⟩
        · exact .inl (List.mem_cons_of_mem _ mem)
        · exact .inr ⟨a, List.mem_cons_of_mem _ mem, inside'⟩

end Yields

/-- The search from an offset on, by the steps that it takes: over a character, or over a call. -/
theorem exists_yields {text : List Char}
    (malformed : ∀ start, text[start]? = some '{' →
      ∀ e, Json.readValue Json.maxDepth (text.drop start) = .error e → e = .malformed)
    {offset : Nat} {cs : List Char} (here : text.drop offset = cs) :
    ∃ spans, embeddedFrom offset cs = spans.map (fun s => (s.start, s.call)) ∧ Yields text offset spans := by
  fun_induction embeddedFrom offset cs with
  | case1 => exact ⟨[], rfl, .nil here⟩
  | case2 offset c cs brace call rest read shorter ih =>
    obtain rfl := eq_of_beq brace
    obtain ⟨acceptable, after⟩ := Span.exists_of_call here read
    obtain ⟨spans, found, yields⟩ := ih after
    exact ⟨_ :: spans, by rw [found]; rfl, .cons acceptable yields⟩
  | case3 offset c cs brace call rest read longer =>
    obtain rfl := eq_of_beq brace
    have forth := (Span.exists_of_call here read).1.start_lt_stop
    dsimp only at forth
    omega
  | case4 offset c cs brace read ih =>
    obtain ⟨spans, found, yields⟩ := ih (drop_succ_of_drop here)
    refine ⟨spans, found, .skip (fun s acceptable same => ?_) yields⟩
    have reading := acceptable.readingAt_eq
    rw [same, here, read] at reading
    contradiction
  | case5 offset c cs brace read =>
    obtain ⟨e, failed, severe⟩ := exists_error_of_stop read
    obtain rfl := eq_of_beq brace
    exact absurd (malformed offset (getElem?_of_drop here) e (here ▸ failed)) severe
  | case6 offset c cs other ih =>
    obtain ⟨spans, found, yields⟩ := ih (drop_succ_of_drop here)
    refine ⟨spans, found, .skip (fun s acceptable same => ?_) yields⟩
    have brace := acceptable.brace
    rw [same, getElem?_of_drop here] at brace
    cases brace
    contradiction

/-! ### The spans of a text -/

/-- The spans are the outermost calls of a text from the left: a call is among them unless it starts inside an earlier
one of them. The last two parts say what this means for objects inside each other. -/
structure LeftmostOutermost (text : List Char) (spans : List Span) : Prop where
  increasing : spans.Pairwise fun a b => a.start < b.start
  mem_iff : ∀ s, s ∈ spans ↔ s.Acceptable text ∧ ∀ a ∈ spans, a.start < s.start → ¬ a.Covers s.start
  disjoint : spans.Pairwise fun a b => ∀ offset, ¬ (a.Covers offset ∧ b.Covers offset)
  /-- An object that is no call, and lies in none that is found, hides no call that it holds. -/
  in_rejected : ∀ start stop value, ReadsAs text start stop value → (∀ call, ofJson value ≠ .ok call) →
    (∀ a ∈ spans, a.start < start → ¬ a.Covers start) →
      ∀ s : Span, s.Acceptable text → start < s.start → s.start < stop →
        (∀ a : Span, a.Acceptable text → start < a.start → a.start < s.start → ¬ a.Covers s.start) → s ∈ spans
  /-- A call that is found hides all that it holds. -/
  in_accepted : ∀ a ∈ spans, ∀ s : Span, a.start < s.start → s.start < a.stop → s ∉ spans

namespace Yields
variable {text : List Char} {spans : List Span}

theorem stop_le_start {offset : Nat} (yields : Yields text offset spans) {a b : Span} (mem : a ∈ spans)
    (mem' : b ∈ spans) (before : a.start < b.start) : a.stop ≤ b.start := by
  have forward : spans.Pairwise fun a b => a.start < b.start → a.stop ≤ b.start :=
    yields.apart.imp_of_mem fun _ _ apart _ => apart
  have backward : spans.Pairwise fun b a => a.start < b.start → a.stop ≤ b.start :=
    yields.apart.imp_of_mem fun {c d} mem _ apart before => by
      have forth := (yields.acceptable c mem).start_lt_stop
      omega
  exact forward.forall_of_forall_of_flip (fun _ _ self => absurd self (Nat.lt_irrefl _)) backward mem mem' before

theorem leftmostOutermost (yields : Yields text 0 spans) : LeftmostOutermost text spans := by
  have mem_iff (s : Span) :
      s ∈ spans ↔ s.Acceptable text ∧ ∀ a ∈ spans, a.start < s.start → ¬ a.Covers s.start := by
    constructor
    · intro mem
      refine ⟨yields.acceptable s mem, fun a mem' before covers => ?_⟩
      exact Nat.not_lt_of_le (yields.stop_le_start mem' mem before) covers.2
    · rintro ⟨acceptable, uncovered⟩
      rcases yields.complete s acceptable (Nat.zero_le _) with mem | ⟨a, mem, before, inside⟩
      · exact mem
      · exact absurd ⟨Nat.le_of_lt before, inside⟩ (uncovered a mem before)
  refine ⟨?_, mem_iff, ?_, ?_, ?_⟩
  · exact yields.apart.imp_of_mem fun mem _ apart =>
      Nat.lt_of_lt_of_le (yields.acceptable _ mem).start_lt_stop apart
  · refine yields.apart.imp fun {a b} apart offset covers => ?_
    obtain ⟨⟨-, inside⟩, starts, -⟩ := covers
    omega
  · intro start stop value reads rejected uncovered s acceptable nested _ direct
    refine (mem_iff s).mpr ⟨acceptable, fun a mem before covers => ?_⟩
    -- A call that covers the nested one starts before the object, with it, or inside it.
    have accepted := yields.acceptable a mem
    rcases Nat.lt_trichotomy a.start start with outside | same | inside
    · exact uncovered a mem outside ⟨Nat.le_of_lt outside, Nat.lt_trans nested covers.2⟩
    · obtain ⟨value', reads', isCall⟩ := accepted
      have readings := reads'.reading
      rw [same, reads.reading] at readings
      obtain ⟨rfl, -⟩ := Prod.mk.inj (Except.ok.inj readings)
      exact rejected _ isCall
    · exact direct a accepted inside before covers
  · intro a mem s before inside mem'
    exact ((mem_iff s).mp mem').2 a mem before ⟨Nat.le_of_lt before, inside⟩

end Yields

/-- Where no brace of a text starts a value beyond the limits of what is read, the calls found are its outermost calls
from the left, each at its offset. -/
theorem extractEmbedded_leftmostOutermost {text : List Char}
    (malformed : ∀ start, text[start]? = some '{' →
      ∀ e, Json.readValue Json.maxDepth (text.drop start) = .error e → e = .malformed) :
    ∃ spans : List Span, extractEmbedded text = spans.map (fun s => (s.start, s.call)) ∧
      LeftmostOutermost text spans := by
  obtain ⟨spans, found, yields⟩ := exists_yields malformed (rfl : text.drop 0 = text)
  exact ⟨spans, found, yields.leftmostOutermost⟩

/-- A call in an object that is none, then a brace that starts no value, then a call in a call. -/
def nestedCalls : List Char :=
  ("\x7b\"a\": \x7b\"tool\": \"todo_list\", \"args\": null\x7d\x7d \x7b" ++
    "\x7b\"name\": \"read_file\", \"parameters\": \x7b\"q\": " ++
    "\x7b\"tool\": \"todo_list\", \"args\": null\x7d\x7d\x7d").toList

theorem extractEmbedded_nestedCalls :
    (extractEmbedded nestedCalls).map Prod.fst = [6, 44] ∧
    ∃ spans : List Span, extractEmbedded nestedCalls = spans.map (fun s => (s.start, s.call)) ∧
      LeftmostOutermost nestedCalls spans := by
  refine ⟨by decide +kernel, extractEmbedded_leftmostOutermost fun start brace e failed => ?_⟩
  have checked : ∀ start < nestedCalls.length,
      (match Json.readValue Json.maxDepth (nestedCalls.drop start) with
        | .error e => decide (e = .malformed)
        | .ok _ => true) = true := by
    decide +kernel
  have made := checked start (List.getElem?_eq_some_iff.mp brace).1
  rw [failed] at made
  exact of_decide_eq_true made

end CodeAgent.JsonCall
