import CodeAgent.Proofs.Json.IndentedText
import CodeAgent.Proofs.Json.Occurrences
import CodeAgent.Proofs.Text.Lines

/-! A value within the limits of the reader is read back from its text. Control characters in the text of a value:
those of its strings are escaped, so that it has none but those of its layout. An indented text ends its lines with
line feeds only, and a text in one line has no line feed. -/
namespace CodeAgent.Json
open CodeAgent.Decimal

/-- A value that the reader takes with so many levels of arrays and objects: no integer is too long, and no
object has a key twice. -/
inductive Fits : Nat → Json → Prop
  | null (depth : Nat) : Fits depth .null
  | bool (depth : Nat) (b : Bool) : Fits depth (.bool b)
  | int (depth : Nat) {n : Int} (short : (natDigits n.natAbs).length ≤ maxIntegerDigits) : Fits depth (.int n)
  | float (depth : Nat) (x : Float) : Fits depth (.float x)
  | str (depth : Nat) (s : String) : Fits depth (.str s)
  | arr {depth : Nat} {items : List Json} (all : ∀ v ∈ items, Fits depth v) : Fits (depth + 1) (.arr items)
  | obj {depth : Nat} {fields : List (String × Json)} (distinct : (OrderedMap.keys fields).Nodup)
      (all : ∀ m ∈ fields, Fits depth m.2) : Fits (depth + 1) (.obj fields)

/-- A reader reads the text of a value as that value, wherever a number could not go on after it. -/
def ReadsBack (style : Style) (level : Nat) (value : ValueReader) (v : Json) : Prop :=
  ∀ ⦃rest : List Char⦄, Stops rest → value (render style level v ++ rest) = .ok (v, rest)

section spaced
variable {style : Style} (spaced : style.Spaced)
include spaced

/-- The text of a scalar does not start like an array or an object. -/
theorem startsScalar_render {v : Json} (scalar : mark v ≠ some '[' ∧ mark v ≠ some '\x7b') (level : Nat)
    (rest : List Char) : StartsScalar (render style level v ++ rest) := by
  obtain ⟨c, cs, text, shape⟩ := render_head spaced.straight v level rest
  rw [render_onOneLine scalar] at text
  rw [text]
  intro d hd
  obtain rfl := Option.some.inj hd
  constructor
  · rintro rfl
    exact scalar.1 (by rw [shape]; decide)
  · rintro rfl
    exact scalar.2 (by rw [shape]; decide)

variable {value : ValueReader} {level n : Nat}

theorem readItems_render {v : Json} {vs : List Json} (reads : ∀ x ∈ v :: vs, ReadsBack style (level + 1) value x)
    (rest : List Char) (enough : vs.length < n) :
    readItems value n (render style (level + 1) v ++ brokenItems style level vs rest) = .ok (v :: vs, rest) := by
  induction vs generalizing v n with
  | nil =>
    obtain ⟨n, rfl⟩ := Nat.exists_eq_add_of_lt enough
    refine readItems_last (reads v List.mem_cons_self (stops_brokenItems spaced level [] rest)) ?_
    exact skipGap_append (gap_breakAt style level) (by simp [Begins, isGap])
  | cons x xs ih =>
    obtain ⟨m, rfl⟩ := Nat.exists_eq_add_one_of_ne_zero (Nat.ne_zero_of_lt enough)
    obtain ⟨more, comma, next⟩ := skipGap_brokenItems_cons spaced x level xs rest
    refine readItems_more (reads v List.mem_cons_self (stops_brokenItems spaced level _ rest)) comma ?_
    rw [next]
    exact ih (fun y hy => reads y (List.mem_cons_of_mem v hy)) (Nat.lt_of_succ_lt_succ enough)

/-- The key of a member is read, and after it the value. -/
theorem exists_read_member (k : String) {v : Json} (reads : ReadsBack style level value v) {tail : List Char}
    (ends : Stops tail) : ∃ text afterKey colon, memberText style level k v tail = '"' :: text ∧
      readString text = .ok (k, afterKey) ∧ skipGap afterKey = ':' :: colon ∧
      value (skipGap colon) = .ok (v, tail) := by
  obtain ⟨gap, colon, white⟩ := spaced.colon
  refine ⟨_, _, gap ++ (render style level v ++ tail), ?_, readString_escaped style.asciiOnly k
    (':' :: (gap ++ (render style level v ++ tail))), skipGap_of_begins (by simp [Begins, isGap]), ?_⟩
  · rw [memberText, stringText, colon]
    simp
  · rw [skipGap_append white (begins_broken spaced v level tail)]
    exact reads ends

theorem readMembers_render {k : String} {v : Json} {fs : List (String × Json)}
    (reads : ∀ m ∈ (k, v) :: fs, ReadsBack style (level + 1) value m.2) (rest : List Char) (enough : fs.length < n) :
    readMembers value n (memberText style (level + 1) k v (brokenFields style level fs rest)) =
      .ok ((k, v) :: fs, rest) := by
  induction fs generalizing k v n with
  | nil =>
    obtain ⟨m, rfl⟩ := Nat.exists_eq_add_one_of_ne_zero (Nat.ne_zero_of_lt enough)
    obtain ⟨text, afterKey, colon, shape, named, marked, first⟩ :=
      exists_read_member spaced k (reads _ List.mem_cons_self) (stops_brokenFields spaced level [] rest)
    rw [shape]
    refine readMembers_last named marked first ?_
    exact skipGap_append (gap_breakAt style level) (by simp [Begins, isGap])
  | cons x xs ih =>
    obtain ⟨m, rfl⟩ := Nat.exists_eq_add_one_of_ne_zero (Nat.ne_zero_of_lt enough)
    obtain ⟨text, afterKey, colon, shape, named, marked, first⟩ :=
      exists_read_member spaced k (reads _ List.mem_cons_self) (stops_brokenFields spaced level (x :: xs) rest)
    obtain ⟨more, comma, next⟩ := skipGap_brokenFields_cons spaced level x.1 x.2 xs rest
    rw [shape]
    refine readMembers_more named marked first comma ?_
    rw [next]
    exact ih (fun y hy => reads y (List.mem_cons_of_mem _ hy)) (Nat.lt_of_succ_lt_succ enough)

theorem readScalar_render {depth : Nat} {v : Json} (fits : Fits depth v)
    (scalar : mark v ≠ some '[' ∧ mark v ≠ some '\x7b') (level : Nat) : ReadsBack style level (readValue depth) v := by
  intro rest ends
  rw [readValue_scalar (startsScalar_render spaced scalar level rest)]
  cases fits with
  | null => rfl
  | bool depth b => cases b <;> rfl
  | @int depth n short =>
    rw [render, readScalar_intDigits n ends, if_neg (Nat.not_lt.mpr short)]
  | float depth x =>
    rw [render]
    exact readScalar_floatText x ends
  | str depth s =>
    rw [render, stringText, List.append_assoc, List.cons_append, readScalar, List.singleton_append,
      readString_escaped]
    rfl
  | arr => exact absurd rfl scalar.1
  | obj => exact absurd rfl scalar.2

/-- Every value that fits is read back from its text. -/
theorem readValue_spaced {depth : Nat} {v : Json} (fits : Fits depth v) (level : Nat) :
    ReadsBack style level (readValue depth) v := by
  induction fits generalizing level with
  | null depth => exact readScalar_render spaced (.null depth) (by simp [mark]) level
  | bool depth b => exact readScalar_render spaced (.bool depth b) (by simp [mark]) level
  | int depth short => exact readScalar_render spaced (.int depth short) (by simp [mark]) level
  | float depth x => exact readScalar_render spaced (.float depth x) (by simp [mark]) level
  | str depth s => exact readScalar_render spaced (.str depth s) (by simp [mark]) level
  | @arr depth items all ih =>
    intro rest ends
    cases items with
    | nil =>
      rw [render_arr_nil]
      exact readValue_empty_array (skipGap_of_begins (by simp [Begins, isGap]))
    | cons v vs =>
      have start := skipGap_append (gap_breakAt style (level + 1))
        (begins_broken spaced v (level + 1) (brokenItems style level vs rest))
      have enough : vs.length < (render style (level + 1) v ++ brokenItems style level vs rest).length + 1 := by
        have long := length_brokenItems spaced level vs rest
        rw [List.length_append]
        omega
      rw [render_arr_broken]
      apply readValue_array
      · intro more bracket
        obtain ⟨c, cs, text, -, other⟩ := render_start spaced v (level + 1) (brokenItems style level vs rest)
        rw [start, text] at bracket
        exact other (List.cons.inj bracket).1
      · rw [start]
        exact readItems_render spaced (fun x hx => ih x hx (level + 1)) rest enough
  | @obj depth fields distinct all ih =>
    intro rest ends
    cases fields with
    | nil =>
      rw [render_obj_nil]
      exact readValue_empty_object (skipGap_of_begins (by simp [Begins, isGap]))
    | cons m fs =>
      have begins : Begins (memberText style (level + 1) m.1 m.2 (brokenFields style level fs rest)) := by
        simp [Begins, memberText, stringText, isGap]
      have start := skipGap_append (gap_breakAt style (level + 1)) begins
      have enough : fs.length <
          (memberText style (level + 1) m.1 m.2 (brokenFields style level fs rest)).length + 1 := by
        have long := length_brokenFields spaced level fs rest
        simp only [memberText, List.length_append]
        omega
      rw [render_obj_broken spaced, ← OrderedMap.ofPairs_of_nodup distinct]
      apply readValue_object
      · intro more bracket
        rw [start] at bracket
        exact absurd (List.cons.inj bracket).1 (by decide)
      · rw [start]
        exact readMembers_render spaced (fun x hx => ih x hx (level + 1)) rest enough

end spaced

/-- Every value that fits is read back from its text on one line. -/
theorem readValue_render {style : Style} (straight : style.Straight) {depth : Nat} {v : Json} (fits : Fits depth v)
    (level : Nat) : ReadsBack style level (readValue depth) v :=
  readValue_spaced straight.spaced fits level

/-- Every value that fits is read back from its text in a style that keeps members in their order. -/
theorem read_write {style : Style} (spaced : style.Spaced) {v : Json} (fits : Fits maxDepth v) :
    read (write style v) = .ok v := by
  have begins := begins_broken spaced v 0 []
  have value : readValue maxDepth (render style 0 v ++ []) = .ok (v, []) :=
    readValue_spaced spaced fits 0 (by simp [Stops])
  rw [List.append_nil] at begins value
  rw [read, write, String.toList_ofList, readChars?, skipGap_of_begins begins, value]
  rfl

end CodeAgent.Json

namespace CodeAgent
open CodeAgent.Text

theorem Text.unifyLineEnds_of_no_return {cs : List Char} (plain : '\r' ∉ cs) : unifyLineEnds cs = cs := by
  induction cs with
  | nil => rfl
  | cons c cs ih =>
    rw [List.mem_cons, not_or] at plain
    rw [unifyLineEnds_cons (Ne.symm plain.1), ih plain.2]

namespace Json

section control
variable {d : Char} (control : d.toNat < 32)
include control

theorem isFrameChar_of_control : isFrameChar d = false := by
  rw [isFrameChar, isPrintable, decide_eq_false (Nat.not_le.mpr control)]
  rfl

theorem IsEscape.control_notMem {cs : List Char} (escape : IsEscape cs) : d ∉ cs := by
  obtain ⟨code, rfl, frame⟩ := escape
  have other := isFrameChar_of_control control
  intro mem
  obtain rfl | mem := List.mem_cons.mp mem
  · exact absurd other (by decide)
  · exact Bool.false_ne_true (other.symm.trans (frame _ mem))

theorem control_notMem_escapeChar (asciiOnly : Bool) (c : Char) : d ∉ escapeChar asciiOnly c := by
  fun_cases escapeChar asciiOnly c with
  | case1 | case2 | case3 | case4 | case5 | case6 | case7 => exact (isEscape_letter (by decide)).control_notMem control
  | case8 _ _ _ _ _ _ _ unprinted => exact (isEscape_unitEscape (by omega)).control_notMem control
  | case9 _ _ _ _ _ _ _ printed =>
    rw [List.mem_singleton]
    exact fun same => printed (same ▸ control)
  | case10 _ _ _ _ _ _ _ _ _ small => exact (isEscape_unitEscape small).control_notMem control
  | case11 _ _ _ _ _ _ _ _ _ large m =>
    have valid : c.toNat < 0x110000 := by
      have valid : c.toNat.isValidChar := c.valid
      simp only [Nat.isValidChar] at valid
      omega
    exact ((isEscape_unitEscape (by omega)).append (isEscape_unitEscape (by omega))).control_notMem control

theorem control_notMem_stringText (asciiOnly : Bool) (s : String) : d ∉ stringText asciiOnly s := by
  have escaped : d ∉ s.toList.flatMap (escapeChar asciiOnly) := fun mem => by
    obtain ⟨c, -, mem⟩ := List.mem_flatMap.mp mem
    exact control_notMem_escapeChar control asciiOnly c mem
  have other : d ≠ '"' := by
    rintro rfl
    exact absurd control (by decide)
  rw [stringText]
  simpa [other] using escaped

omit control in
theorem notMem_bracketed {style : Style} (after : d ∉ style.afterItem) (breaks : ∀ level, d ∉ style.breakAt level)
    {level : Nat} {left right : Char} (brackets : d ∉ [left, right]) {items : List (List Char)}
    (all : ∀ x ∈ items, d ∉ x) : d ∉ bracketed style level left right items := by
  cases items with
  | nil => exact brackets
  | cons x xs =>
    obtain ⟨first, others⟩ := List.forall_mem_cons.mp all
    have between : d ∉ xs.flatMap (style.afterItem ++ style.breakAt (level + 1) ++ ·) := fun mem => by
      obtain ⟨y, item, mem⟩ := List.mem_flatMap.mp mem
      simp only [List.mem_append, after, breaks, others y item, or_self] at mem
    rw [bracketed_broken]
    simp only [List.mem_cons, List.mem_append, breaks, first, between, List.not_mem_nil, or_false,
      false_or] at brackets ⊢
    exact brackets

/-- Text has no control characters but those of its style. -/
theorem control_notMem_render {style : Style} (afterItem : d ∉ style.afterItem) (afterKey : d ∉ style.afterKey)
    (breaks : ∀ level, d ∉ style.breakAt level) (unsorted : style.sorted = false) {depth : Nat} {v : Json}
    (fits : Fits depth v) (level : Nat) : d ∉ render style level v := by
  have other := isFrameChar_of_control control
  have token {v : Json} (token : isToken v = true) (level : Nat) : d ∉ render style level v := fun mem =>
    Bool.false_ne_true (other.symm.trans (token_frame style token level _ mem))
  have frame (left right : Char) (left_frame : isFrameChar left = true) (right_frame : isFrameChar right = true) :
      d ∉ [left, right] := by
    rw [List.mem_pair]
    rintro (rfl | rfl)
    · exact Bool.false_ne_true (other.symm.trans left_frame)
    · exact Bool.false_ne_true (other.symm.trans right_frame)
  induction fits generalizing level with
  | null | bool | int | float => exact token rfl level
  | str depth s => rw [render]; exact control_notMem_stringText control _ s
  | @arr depth items all ih =>
    rw [render, renderItems_eq_map]
    refine notMem_bracketed afterItem breaks (frame _ _ (by decide) (by decide)) fun x mem => ?_
    obtain ⟨v, item, rfl⟩ := List.mem_map.mp mem
    exact ih v item (level + 1)
  | @obj depth fields distinct all ih =>
    rw [render, unsorted, renderFields_eq_map]
    refine notMem_bracketed afterItem breaks (frame _ _ (by decide) (by decide)) fun x mem => ?_
    obtain ⟨text, member, rfl⟩ := List.mem_map.mp mem
    obtain ⟨m, field, rfl⟩ := List.mem_map.mp member
    simp only [List.mem_append, control_notMem_stringText control, afterKey, ih m field (level + 1), or_self,
      not_false_eq_true]

end control

/-- Text in a style without carriage returns has none. -/
theorem no_return_render {style : Style} (afterItem : '\r' ∉ style.afterItem) (afterKey : '\r' ∉ style.afterKey)
    (unsorted : style.sorted = false) {depth : Nat} {v : Json} (fits : Fits depth v) (level : Nat) :
    '\r' ∉ render style level v := by
  refine control_notMem_render (by decide) afterItem afterKey (fun level => ?_) unsorted fits level
  unfold Style.breakAt
  split
  · exact List.not_mem_nil
  · rw [List.mem_cons, not_or]
    exact ⟨by decide, fun mem => absurd (List.eq_of_mem_replicate mem) (by decide)⟩

/-- Text in one line has no line feed. -/
theorem no_feed_render {style : Style} (one_line : style.indent = none) (afterItem : '\n' ∉ style.afterItem)
    (afterKey : '\n' ∉ style.afterKey) (unsorted : style.sorted = false) {depth : Nat} {v : Json}
    (fits : Fits depth v) (level : Nat) : '\n' ∉ render style level v := by
  refine control_notMem_render (by decide) afterItem afterKey (fun level => ?_) unsorted fits level
  rw [Style.breakAt, one_line]
  exact List.not_mem_nil

end Json

end CodeAgent
