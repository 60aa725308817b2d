import CodeAgent.Proofs.Wire.ValueChunks

/-! The parts of a stream that a decoder reads one by one, lines or values, and the decoder as a reader of these
parts. What the parts of a stream must be like for their texts to be read: a part that is no JSON is passed over, and
one that is beyond the limits of JSON, or whose lists are numbers or truth values, breaks the stream. -/
namespace CodeAgent.Wire
open CodeAgent.Text

/-- The lines of a stream that goes on, and what follows the last of them. -/
theorem splitLines_append (bs more : Bytes) : splitLines (bs ++ more) =
    ((splitLines bs).1 ++ (splitLines ((splitLines bs).2 ++ more)).1,
      (splitLines ((splitLines bs).2 ++ more)).2) := by
  induction bs with
  | nil => rfl
  | cons b bs ih =>
    rw [List.cons_append, splitLines, splitLines, ih]
    by_cases hb : (b == lineFeed) = true
    · simp only [hb, if_true, List.cons_append]
    · simp only [hb, Bool.false_eq_true, if_false]
      cases (splitLines bs).1 with
      | nil => simp only [List.nil_append, List.cons_append, splitLines, hb, Bool.false_eq_true, if_false]
      | cons line lines => simp only [List.cons_append]

namespace Scan

/-- The values that are complete in characters from some state on, and the state after them. -/
def values (s : Scan) : List Char → List (List Char) × Scan
  | [] => ([], s)
  | c :: cs =>
    match s.step c with
    | (s, none) => values s cs
    | (s, some value) => (value :: (values s cs).1, (values s cs).2)

theorem values_append (s : Scan) (cs ds : List Char) : s.values (cs ++ ds) =
    ((s.values cs).1 ++ ((s.values cs).2.values ds).1, ((s.values cs).2.values ds).2) := by
  induction cs generalizing s with
  | nil => rfl
  | cons c cs ih =>
    rw [List.cons_append, values, values]
    obtain ⟨next, value⟩ := s.step c
    cases value with
    | none => exact ih next
    | some value =>
      dsimp only
      rw [ih]
      rfl

theorem values_pending (s : Scan) (p : Utf8.Pending) (cs : List Char) :
    { s with pending := p }.values cs = ((s.values cs).1, { (s.values cs).2 with pending := p }) := by
  induction cs generalizing s with
  | nil => rfl
  | cons c cs ih =>
    rw [values, values, step_pending]
    obtain ⟨next, value⟩ := s.step c
    cases value with
    | none => exact ih next
    | some value =>
      dsimp only
      rw [ih]

/-- The texts of values in order, up to the first that is refused. -/
theorem run_texts (read : TextReader) (s : Scan) (cs : List Char) :
    (s.run read cs).2 = ((s.values cs).1.mapM read).map List.flatten := by
  induction cs generalizing s with
  | nil => rfl
  | cons c cs ih =>
    rw [run, values]
    obtain ⟨next, value⟩ := s.step c
    cases value with
    | none => exact ih next
    | some value =>
      dsimp only
      rw [List.mapM_cons]
      cases read value with
      | error e => rfl
      | ok texts =>
        dsimp only
        rw [ih]
        cases (next.values cs).1.mapM read <;> rfl

theorem run_state {read : TextReader} {s : Scan} {cs : List Char} {texts : List String}
    (read_all : (s.run read cs).2 = .ok texts) : (s.run read cs).1 = (s.values cs).2 := by
  induction cs generalizing s texts with
  | nil => rfl
  | cons c cs ih =>
    rw [run] at read_all ⊢
    rw [values]
    generalize s.step c = made at read_all ⊢
    obtain ⟨next, value⟩ := made
    cases value with
    | none => exact ih read_all
    | some value =>
      dsimp only at read_all ⊢
      cases hr : read value with
      | error e =>
        rw [hr] at read_all
        contradiction
      | ok first =>
        rw [hr] at read_all
        dsimp only at read_all
        cases hm : (next.run read cs).2 with
        | error e =>
          rw [hm] at read_all
          contradiction
        | ok rest => exact ih hm

/-- The mark of an invalid sequence completes no value. -/
theorem step_replacement (s : Scan) : (s.step Utf8.replacement).2 = none ∧
    (s.step Utf8.replacement).1.depth = s.depth ∧
    (0 < s.depth → (s.step Utf8.replacement).1.value = Utf8.replacement :: s.value) := by
  have plain : opens Utf8.replacement = false ∧ closes Utf8.replacement = false ∧
      (Utf8.replacement == '"') = false ∧ (Utf8.replacement == '\\') = false ∧
      (Utf8.replacement == '[') = false ∧ (Utf8.replacement == ']') = false := by decide
  obtain ⟨opening, closing, quote, mark, array, array'⟩ := plain
  unfold step
  split
  · next outside => simp [between, opening, array, array', outside]
  · next within =>
    unfold inside insideString
    dsimp only
    split_ifs <;> simp_all

/-- At the end, an unfinished character counts for the value that is open. -/
theorem values_finish (s : Scan) (p : Utf8.Pending) :
    (s.values (Utf8.repair (Utf8.finish p))).1 = [] ∧
      (s.values (Utf8.repair (Utf8.finish p))).2.depth = s.depth ∧
      (0 < s.depth → (s.values (Utf8.repair (Utf8.finish p))).2.value =
        (Utf8.repair (Utf8.finish p)).reverse ++ s.value) := by
  cases p with
  | start => exact ⟨rfl, rfl, fun _ => rfl⟩
  | inside needed low high value =>
    obtain ⟨none_done, depth_eq, value_eq⟩ := s.step_replacement
    change (s.values [Utf8.replacement]).1 = [] ∧ (s.values [Utf8.replacement]).2.depth = _ ∧
      (_ → (s.values [Utf8.replacement]).2.value = _)
    unfold values
    generalize s.step Utf8.replacement = made at none_done depth_eq value_eq
    obtain ⟨next, done⟩ := made
    obtain rfl : done = none := none_done
    exact ⟨rfl, depth_eq, value_eq⟩

end Scan

/-- Failures may be named before or after a list is read. -/
theorem mapM_mapError {α β ε δ : Type} (f : α → Except ε β) (g : ε → δ) (xs : List α) :
    xs.mapM (fun x => (f x).mapError g) = (xs.mapM f).mapError g := by
  induction xs with
  | nil => rfl
  | cons x xs ih =>
    rw [List.mapM_cons, List.mapM_cons, ih]
    cases f x with
    | error e => rfl
    | ok y => cases xs.mapM f <;> rfl

/-- The texts on a trimmed line. -/
def LineFormat.texts (f : LineFormat) (line : List Char) : Except Breakdown (List String) :=
  (f.textOf line).map fun text => (text.filter (· != "")).toList

/-- The texts in a complete value. -/
def textsOfValue (value : List Char) : Except Breakdown (List String) := do
  match ← readJson value with
  | some v => valueTexts v
  | none => return []

/-- A line that is empty carries no text, as any other that is no data. -/
theorem LineFormat.piecesOf_eq (f : LineFormat) (line : Bytes) :
    f.piecesOf line = f.texts (trimChars (Utf8.decode line)) := by
  unfold piecesOf texts
  cases trimChars (Utf8.decode line) with
  | nil => cases f <;> rfl
  | cons c cs =>
    dsimp only
    cases f.textOf (c :: cs) <;> rfl

theorem Scan.textsOf_eq (value : List Char) : textsOf value = (textsOfValue value).mapError .breakdown := by
  unfold textsOf textsOfValue
  cases readJson value with
  | error b => rfl
  | ok v => cases v <;> rfl

namespace Decoder

/-- The parts of a stream, lines or values, that are complete in some bytes, and the decoder after them. -/
def parts : Decoder → Bytes → List (List Char) × Decoder
  | lines f kept, bs =>
    ((splitLines (kept ++ bs)).1.map fun line => trimChars (Utf8.decode line),
      lines f (splitLines (kept ++ bs)).2)
  | values s, bs =>
    let made := s.values (Utf8.repair (Utf8.run s.pending bs).1)
    (made.1, values { made.2 with pending := (Utf8.run s.pending bs).2 })

/-- The part that only the end of the stream completes. -/
def last? : Decoder → Option (List Char)
  | lines _ kept => some (trimChars (Utf8.decode kept))
  | values _ => none

/-- What the end of the stream breaks off. -/
def unfinished? : Decoder → Option (List Char)
  | lines .. => none
  | values s =>
    if 0 < s.depth then some ((Utf8.repair (Utf8.finish s.pending)).reverse ++ s.value).reverse else none

/-- The texts in a part. -/
def textsOf : Decoder → List Char → Except Breakdown (List String)
  | lines f _ => f.texts
  | values _ => textsOfValue

/-- All parts of a stream that ended after some bytes, or was cut off. -/
def allParts (d : Decoder) (bs : Bytes) (ended : Bool) : List (List Char) :=
  (d.parts bs).1 ++ if ended then (d.parts bs).2.last?.toList else []

variable (d : Decoder)

theorem last?_eq_none {value : List Char} (open' : d.unfinished? = some value) : d.last? = none := by
  cases d with
  | lines f kept => contradiction
  | values s => rfl

theorem parts_append (bs more : Bytes) : d.parts (bs ++ more) =
    ((d.parts bs).1 ++ ((d.parts bs).2.parts more).1, ((d.parts bs).2.parts more).2) := by
  cases d with
  | lines f kept =>
    rw [parts, ← List.append_assoc, splitLines_append, List.map_append]
    rfl
  | values s =>
    rw [parts, Utf8.run_append, Utf8.repair, List.map_append, ← Utf8.repair, ← Utf8.repair, Scan.values_append]
    simp only [parts, Scan.values_pending]

/-- Nothing is left to read before the next bytes come. -/
theorem parts_settled (bs : Bytes) : (d.parts bs).2.parts [] = ([], (d.parts bs).2) := by
  have whole := d.parts_append bs []
  rw [List.append_nil] at whole
  have more := congrArg Prod.fst whole
  have last := congrArg Prod.snd whole
  exact Prod.ext (List.append_right_eq_self.mp more.symm) last.symm

theorem allParts_append (bs more : Bytes) (ended : Bool) :
    d.allParts (bs ++ more) ended = (d.parts bs).1 ++ (d.parts bs).2.allParts more ended := by
  rw [allParts, parts_append, allParts, List.append_assoc]

theorem textsOf_parts (bs : Bytes) : (d.parts bs).2.textsOf = d.textsOf := by
  cases d <;> rfl

private theorem mapM_lines (f : LineFormat) (done : List Bytes) :
    (done.map fun line => trimChars (Utf8.decode line)).mapM f.texts = done.mapM f.piecesOf := by
  rw [List.mapM_map]
  exact congrArg (List.mapM · done) (funext fun line => (f.piecesOf_eq line).symm)

private theorem mapM_values (found : List (List Char)) :
    found.mapM Scan.textsOf = (found.mapM textsOfValue).mapError .breakdown := by
  rw [← mapM_mapError]
  exact congrArg (List.mapM · found) (funext Scan.textsOf_eq)

/-- What a chunk gives are the texts of the parts that it completes. -/
theorem feed_texts (chunk : Bytes) :
    (d.feed chunk).2 = (((d.parts chunk).1.mapM d.textsOf).map List.flatten).mapError .breakdown := by
  cases d with
  | lines f kept =>
    change (feedLines f kept chunk).2.mapError _ = Except.mapError _ (Except.map _ (List.mapM f.texts _))
    rw [feedLines_texts, parts, mapM_lines]
  | values s =>
    change (s.feed Scan.textsOf chunk).2 = Except.mapError _ (Except.map _ (List.mapM textsOfValue _))
    rw [Scan.feed_eq_run, parts]
    dsimp only
    rw [Scan.run_texts, mapM_values]
    cases List.mapM textsOfValue _ <;> rfl

theorem feed_state {chunk : Bytes} {texts : List String} (fed : (d.feed chunk).2 = .ok texts) :
    (d.feed chunk).1 = (d.parts chunk).2 := by
  cases d with
  | lines f kept =>
    change (feedLines f kept chunk).2.mapError _ = _ at fed
    change lines f (feedLines f kept chunk).1 = _
    cases hf : (feedLines f kept chunk).2 with
    | error b =>
      rw [hf] at fed
      contradiction
    | ok texts => rw [feedLines_kept hf, parts]
  | values s =>
    change (s.feed Scan.textsOf chunk).2 = _ at fed
    change values (s.feed Scan.textsOf chunk).1 = _
    rw [Scan.feed_eq_run] at fed ⊢
    rw [Scan.run_state fed, parts]

/-- What the end gives is the text of the last part, unless it breaks one off. -/
theorem finish_texts : d.finish.2 =
    match d.unfinished? with
    | some value => .error (.fault (Scan.unfinished value))
    | none => ((d.last?.toList.mapM d.textsOf).map List.flatten).mapError .breakdown := by
  cases d with
  | lines f kept =>
    change (f.piecesOf kept).mapError Failure.breakdown = Except.mapError Failure.breakdown
      (Except.map List.flatten ([trimChars (Utf8.decode kept)].mapM f.texts))
    rw [f.piecesOf_eq, List.mapM_cons, List.mapM_nil]
    cases f.texts (trimChars (Utf8.decode kept)) with
    | error b => rfl
    | ok pieces => simp [bind, Except.bind, pure, Except.pure, Except.map]
  | values s =>
    change (s.finish Scan.textsOf).2 = _
    obtain ⟨none_done, depth_eq, value_eq⟩ := s.values_finish s.pending
    have read := s.run_texts Scan.textsOf (Utf8.repair (Utf8.finish s.pending))
    rw [none_done] at read
    have state := Scan.run_state read
    rw [Scan.finish_eq_conclude, Scan.conclude]
    generalize s.run Scan.textsOf (Utf8.repair (Utf8.finish s.pending)) = made at read state
    obtain ⟨next, out⟩ := made
    obtain rfl : out = .ok [] := read
    obtain rfl : next = _ := state
    dsimp only
    unfold unfinished?
    by_cases inside : 0 < s.depth
    · rw [if_pos (depth_eq ▸ inside), value_eq inside]
      dsimp only
      rw [if_pos inside]
    · rw [if_neg (depth_eq ▸ inside)]
      dsimp only
      rw [if_neg inside]
      rfl

end Decoder
end CodeAgent.Wire

namespace CodeAgent.Wire
open CodeAgent.Text

/-- Reading a list fails as one of its elements does, or gives what each of them gives. -/
theorem mapM_cases {α β ε : Type} {f : α → Except ε β} {g : α → β}
    (value : ∀ x y, f x = .ok y → y = g x) (xs : List α) :
    (∃ x ∈ xs, ∃ e, f x = .error e ∧ xs.mapM f = .error e) ∨
      (¬ ∃ x ∈ xs, ∃ e, f x = .error e) ∧ xs.mapM f = .ok (xs.map g) := by
  induction xs with
  | nil => exact .inr ⟨by simp, rfl⟩
  | cons x xs ih =>
    rw [List.mapM_cons]
    cases first : f x with
    | error e => exact .inl ⟨x, by simp, e, first, rfl⟩
    | ok y =>
      rcases ih with ⟨z, mem, e, failed, made⟩ | ⟨none_fails, made⟩
      · exact .inl ⟨z, by simp [mem], e, failed, by rw [made]; rfl⟩
      · refine .inr ⟨by simpa [first] using none_fails, ?_⟩
        rw [made, value x y first]
        rfl

/-- Where all failures are the same, a list is refused for any of its elements. -/
theorem mapM_eq_error_iff {α β ε : Type} {f : α → Except ε β} {e₀ : ε} (xs : List α)
    (only : ∀ x ∈ xs, ∀ e, f x = .error e → e = e₀) {e : ε} :
    xs.mapM f = .error e ↔ e = e₀ ∧ ∃ x ∈ xs, f x = .error e₀ := by
  induction xs with
  | nil => simp [pure, Except.pure]
  | cons x xs ih =>
    rw [List.mapM_cons]
    cases first : f x with
    | error e' =>
      obtain rfl := only x (by simp) e' first
      simp [bind, Except.bind, first, eq_comm]
    | ok y =>
      have rest := ih fun z hz => only z (by simp [hz])
      simp only [List.mem_cons, exists_eq_or_imp, first, reduceCtorEq, false_or]
      rw [← rest]
      cases xs.mapM f <;> simp [bind, Except.bind, pure, Except.pure]

/-- What stands under a key counts, and is a number or a truth value. -/
def Unlisted (fields : Json.Fields) (key : String) : Prop :=
  ∃ v, OrderedMap.get? fields key = some v ∧ v.isPresent = true ∧
    ((∃ b, v = .bool b) ∨ (∃ n, v = .int n) ∨ ∃ x, v = .float x)

theorem elementsUnder_eq_error_iff {fields : Json.Fields} {key : String} {b : Breakdown} :
    elementsUnder fields key = .error b ↔ b = .wrongType ∧ Unlisted fields key := by
  unfold elementsUnder Unlisted
  cases OrderedMap.get? fields key with
  | none => simp
  | some v =>
    cases present : v.isPresent with
    | false => simp [present]
    | true =>
      rw [eq_comm (a := b)]
      cases v <;> simp [present]

/-- A candidate whose parts are no list. -/
def PartsUnlisted (candidate : Json) : Prop :=
  ∃ content, candidate.get? "content" = some (.obj content) ∧ Unlisted content "parts"

theorem candidateTexts_eq_error_iff {v : Json} {b : Breakdown} :
    candidateTexts v = .error b ↔ b = .wrongType ∧ PartsUnlisted v := by
  unfold candidateTexts PartsUnlisted
  split
  · next content found =>
    have same : (∃ fields, v.get? "content" = some (.obj fields) ∧ Unlisted fields "parts") ↔
        Unlisted content "parts" := by
      simp [found]
    rw [same, ← elementsUnder_eq_error_iff]
    cases elementsUnder content "parts" <;> simp [bind, Except.bind, pure, Except.pure]
  · next other =>
    have none_found : ¬ ∃ fields, v.get? "content" = some (.obj fields) ∧ Unlisted fields "parts" := by
      rintro ⟨fields, found, -⟩
      exact other fields found
    simp [none_found]

/-- A response whose candidates are no list, or that lists one whose parts are none. -/
def Misshapen (response : Json) : Prop :=
  ∃ fields, response = .obj fields ∧ (Unlisted fields "candidates" ∨
    ∃ candidates, elementsUnder fields "candidates" = .ok candidates ∧ ∃ c ∈ candidates, PartsUnlisted c)

theorem responseTexts_eq_error_iff {v : Json} {b : Breakdown} :
    responseTexts v = .error b ↔ b = .wrongType ∧ Misshapen v := by
  unfold responseTexts Misshapen
  cases v with
  | obj fields =>
    dsimp only
    simp only [Json.obj.injEq, exists_eq_left']
    cases listed : elementsUnder fields "candidates" with
    | error b' =>
      obtain ⟨rfl, unlisted⟩ := elementsUnder_eq_error_iff.mp listed
      simp [bind, Except.bind, unlisted, eq_comm]
    | ok candidates =>
      have fine : ¬ Unlisted fields "candidates" := by
        intro unlisted
        have failed := elementsUnder_eq_error_iff.mpr ⟨rfl, unlisted⟩
        rw [listed] at failed
        contradiction
      have each := mapM_eq_error_iff (f := candidateTexts) candidates (e := b)
        fun c _ e failed => (candidateTexts_eq_error_iff.mp failed).1
      simp only [candidateTexts_eq_error_iff, true_and] at each
      simp only [fine, false_or, Except.ok.injEq, exists_eq_left']
      rw [← each]
      change (candidates.mapM candidateTexts >>= fun texts => pure texts.flatten) = _ ↔ _
      cases candidates.mapM candidateTexts <;> simp [bind, Except.bind, pure, Except.pure]
  | _ => simp

/-- The responses that a value holds. -/
def responsesOf : Json → List Json
  | .arr items => items
  | v => [v]

theorem valueTexts_eq (v : Json) : valueTexts v = ((responsesOf v).mapM responseTexts).map List.flatten := by
  have single : ([v].mapM responseTexts).map List.flatten = responseTexts v := by
    rw [List.mapM_cons, List.mapM_nil]
    cases responseTexts v <;> simp [bind, Except.bind, pure, Except.pure, Except.map]
  cases v with
  | arr items =>
    change (items.mapM responseTexts >>= fun texts => pure texts.flatten) = _
    unfold responsesOf
    cases items.mapM responseTexts <;> rfl
  | _ => exact single.symm

theorem valueTexts_eq_error_iff {v : Json} {b : Breakdown} :
    valueTexts v = .error b ↔ b = .wrongType ∧ ∃ response ∈ responsesOf v, Misshapen response := by
  have each := mapM_eq_error_iff (f := responseTexts) (responsesOf v) (e := b)
    fun c _ e failed => (responseTexts_eq_error_iff.mp failed).1
  simp only [responseTexts_eq_error_iff, true_and] at each
  rw [valueTexts_eq, ← each]
  cases (responsesOf v).mapM responseTexts <;> simp [Except.map]

end CodeAgent.Wire
