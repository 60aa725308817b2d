import CodeAgent.Proofs.Text.Blank
import CodeAgent.Proofs.Text.LineRanges
import CodeAgent.Proofs.Text.SourceLines
import CodeAgent.Symbols.PythonOutline

/-! The first lines of texts that document something. Every such text has one or is empty, except those of white space in
which there is more than line feeds after the first line: these are not empty without their margin, and have no first
line. -/
namespace CodeAgent
open CodeAgent.Text

/-- There is nothing but white space in a text, and more than line feeds after the first line. -/
def BlankBlock (doc : List Char) : Prop :=
  doc.all isBlank = true ∧ (doc.dropWhile (· != '\n')).any (· != '\n') = true

instance : DecidablePred BlankBlock := fun _ => inferInstanceAs (Decidable (_ ∧ _))

theorem blankBlock_iff (doc : List Char) :
    BlankBlock doc ↔ (∀ c ∈ doc, isBlank c = true) ∧ ∃ c ∈ doc.dropWhile (· != '\n'), c ≠ '\n' := by
  rw [BlankBlock, List.all_eq_true, List.any_eq_true]
  simp only [bne_iff_ne]

/-- The first line of a text without its margin and the white space around it. -/
def docDetail (doc : List Char) : Option String :=
  (lines (trimChars (withoutMargin doc))).head?.map fun line => String.ofList (line.take maxDetailLength)

theorem expandTabs_tab (column : Nat) (cs : List Char) :
    expandTabs column ('\t' :: cs) = List.replicate (8 - column % 8) ' ' ++ expandTabs 0 cs := rfl

theorem expandTabs_cons {c : Char} (other : c ≠ '\t') (column : Nat) (cs : List Char) :
    expandTabs column (c :: cs) = c :: expandTabs (if c == '\n' || c == '\r' then 0 else column + 1) cs := by
  rw [expandTabs]
  exact other

section tabs
variable {cs : List Char}

theorem mem_expandTabs {c : Char} (other : c ≠ '\t') (mem : c ∈ cs) (column : Nat) : c ∈ expandTabs column cs := by
  induction cs generalizing column with
  | nil => cases mem
  | cons d cs ih =>
    by_cases tab : d = '\t'
    · rw [tab, expandTabs_tab]
      obtain rfl | later := List.mem_cons.mp mem
      · exact absurd tab other
      · exact List.mem_append_right _ (ih later 0)
    · rw [expandTabs_cons tab]
      obtain rfl | later := List.mem_cons.mp mem
      · exact List.mem_cons_self
      · exact List.mem_cons_of_mem _ (ih later _)

theorem blank_of_mem_expandTabs (blank : ∀ c ∈ cs, isBlank c = true) (column : Nat) :
    ∀ c ∈ expandTabs column cs, isBlank c = true := by
  induction cs generalizing column with
  | nil => exact nofun
  | cons d cs ih =>
    obtain ⟨own, others⟩ := List.forall_mem_cons.mp blank
    by_cases tab : d = '\t'
    · rw [tab, expandTabs_tab]
      refine List.forall_mem_append.mpr ⟨fun c mem => ?_, ih others 0⟩
      rw [List.eq_of_mem_replicate mem]
      rfl
    · rw [expandTabs_cons tab]
      exact List.forall_mem_cons.mpr ⟨own, ih others _⟩

/-- Expanding a tab gives at least one space. -/
theorem exists_expandTabs_tab (column : Nat) (cs : List Char) :
    ∃ spaces, expandTabs column ('\t' :: cs) = ' ' :: List.replicate spaces ' ' ++ expandTabs 0 cs := by
  have few := Nat.mod_lt column (by decide : 8 > 0)
  obtain ⟨spaces, some⟩ := Nat.exists_eq_add_of_lt (Nat.sub_pos_of_lt few)
  refine ⟨spaces, ?_⟩
  rw [expandTabs_tab, some, Nat.zero_add, List.replicate_succ]

theorem exists_mem_expandTabs_iff (column : Nat) :
    (∃ c ∈ expandTabs column cs, c ≠ '\n') ↔ ∃ c ∈ cs, c ≠ '\n' := by
  induction cs generalizing column with
  | nil => rfl
  | cons d cs ih =>
    by_cases tab : d = '\t'
    · obtain ⟨spaces, expanded⟩ := exists_expandTabs_tab column cs
      rw [tab, expanded]
      exact iff_of_true ⟨' ', List.mem_cons_self, by decide⟩ ⟨'\t', List.mem_cons_self, by decide⟩
    · rw [expandTabs_cons tab]
      simp only [List.mem_cons, exists_eq_or_imp, ih]

/-- Expanding tabs leaves what is on the later lines there. -/
theorem exists_after_newline_expandTabs_iff (column : Nat) :
    (∃ c ∈ (expandTabs column cs).dropWhile (· != '\n'), c ≠ '\n') ↔ ∃ c ∈ cs.dropWhile (· != '\n'), c ≠ '\n' := by
  induction cs generalizing column with
  | nil => rfl
  | cons d cs ih =>
    by_cases tab : d = '\t'
    · rw [tab, expandTabs_tab, List.dropWhile_append_of_pos, ih]
      · rfl
      · intro c mem
        rw [List.eq_of_mem_replicate mem]
        rfl
    · rw [expandTabs_cons tab, List.dropWhile_cons, List.dropWhile_cons]
      split
      · exact ih _
      · simp only [List.mem_cons, exists_eq_or_imp, exists_mem_expandTabs_iff]

end tabs

section pieces
variable {c : Char} {cs : List Char}

theorem exists_piece_of_mem (other : c ≠ '\n') (mem : c ∈ cs) : ∃ piece ∈ splitAtEach '\n' cs, c ∈ piece := by
  rw [← intercalate_splitAtEach cs] at mem
  exact (mem_intercalate mem).resolve_left fun own => other (List.mem_singleton.mp own)

theorem exists_filled_piece_iff :
    (∃ piece ∈ splitAtEach '\n' cs, piece ≠ []) ↔ ∃ c ∈ cs, c ≠ '\n' := by
  constructor
  · rintro ⟨piece, mem, filled⟩
    by_contra fed
    have feeds : ∀ c ∈ cs, c = '\n' := by simpa using fed
    clear fed
    induction cs with
    | nil => exact filled (List.mem_singleton.mp mem)
    | cons d cs ih =>
      obtain ⟨rfl, others⟩ := List.forall_mem_cons.mp feeds
      rw [splitAtEach_self] at mem
      exact ih ((List.mem_cons.mp mem).resolve_left filled) others
  · rintro ⟨c, mem, other⟩
    obtain ⟨piece, there, own⟩ := exists_piece_of_mem other mem
    exact ⟨piece, there, List.ne_nil_of_mem own⟩

/-- A line after the first one has something on it if there is more than line feeds. -/
theorem exists_filled_later_piece_iff {first : List Char} {more : List (List Char)}
    (split : splitAtEach '\n' cs = first :: more) :
    (∃ piece ∈ more, piece ≠ []) ↔ ∃ c ∈ cs.dropWhile (· != '\n'), c ≠ '\n' := by
  by_cases fed : '\n' ∈ cs
  · obtain ⟨start, rest, rfl, absent⟩ := List.eq_append_cons_of_mem fed
    have plain : ∀ c ∈ start, (c != '\n') = true := fun c mem => by
      simpa using fun same : c = '\n' => absent (same ▸ mem)
    rw [splitAtEach_append_cons absent] at split
    obtain ⟨-, rfl⟩ := List.cons.inj split
    rw [dropWhile_append_cons plain (by decide), exists_filled_piece_iff]
    simp
  · have plain : ∀ c ∈ cs, (c != '\n') = true := fun c mem => by
      simpa using fun same : c = '\n' => fed (same ▸ mem)
    rw [splitAtEach_of_notMem fed] at split
    obtain ⟨-, rfl⟩ := List.cons.inj split
    rw [List.dropWhile_eq_nil_iff.mpr plain]
    simp

end pieces

/-- Lines without the margin that they share. -/
def withoutShared (more : List (List Char)) : List (List Char) :=
  match (more.filterMap margin?).min? with
  | some n => more.map (·.drop n)
  | none => more

section margin
variable {c : Char} {line : List Char} {more : List (List Char)}

theorem margin?_of_blank (blank : ∀ c ∈ line, isBlank c = true) : margin? line = none :=
  if_pos (List.all_eq_true.mpr blank)

theorem margin?_of_ink (mem : c ∈ line) (ink : ¬ isBlank c = true) :
    margin? line = some (line.takeWhile isBlank).length :=
  if_neg fun all => ink (List.all_eq_true.mp all c mem)

theorem withoutShared_of_blank (blank : ∀ line ∈ more, ∀ c ∈ line, isBlank c = true) : withoutShared more = more := by
  have none : more.filterMap margin? = [] :=
    List.filterMap_eq_nil_iff.mpr fun line mem => margin?_of_blank (blank line mem)
  rw [withoutShared, none]
  rfl

theorem mem_drop_of_ink (mem : c ∈ line) (ink : ¬ isBlank c = true) {n : Nat}
    (low : n ≤ (line.takeWhile isBlank).length) : c ∈ line.drop n := by
  rw [← List.takeWhile_append_dropWhile (p := isBlank) (l := line), List.drop_append_of_le_length low]
  exact List.mem_append_right _ (mem_dropWhile_of_neg mem ink)

/-- The margin that lines share has no ink. -/
theorem exists_mem_withoutShared (there : line ∈ more) (mem : c ∈ line) (ink : ¬ isBlank c = true) :
    ∃ line' ∈ withoutShared more, c ∈ line' := by
  unfold withoutShared
  split
  · next n least =>
    refine ⟨line.drop n, List.mem_map_of_mem there, mem_drop_of_ink mem ink ?_⟩
    refine (List.min?_eq_some_iff.mp least).2 _ (List.mem_filterMap.mpr ⟨line, there, margin?_of_ink mem ink⟩)
  · exact ⟨line, there, mem⟩

end margin

section doc
variable {doc first : List Char} {more : List (List Char)}

theorem withoutMargin_eq (split : splitAtEach '\n' (expandTabs 0 doc) = first :: more) :
    withoutMargin doc =
      ['\n'].intercalate (trimBy List.isEmpty (first.dropWhile isBlank :: withoutShared more)) := by
  rw [withoutMargin, split]
  rfl

/-- What is not white space stays. -/
theorem mem_withoutMargin {c : Char} (mem : c ∈ doc) (ink : ¬ isBlank c = true) : c ∈ withoutMargin doc := by
  have other (d : Char) (blank : isBlank d = true) : c ≠ d := fun same => ink (same ▸ blank)
  obtain ⟨line, there, own⟩ := exists_piece_of_mem (other '\n' rfl) (mem_expandTabs (other '\t' rfl) mem 0)
  obtain ⟨first, more, split⟩ := List.exists_cons_of_ne_nil (splitAtEach_ne_nil '\n' (expandTabs 0 doc))
  have kept : ∃ line ∈ first.dropWhile isBlank :: withoutShared more, c ∈ line := by
    rw [split] at there
    obtain rfl | later := List.mem_cons.mp there
    · exact ⟨_, List.mem_cons_self, mem_dropWhile_of_neg own ink⟩
    · obtain ⟨line', there', own'⟩ := exists_mem_withoutShared later own ink
      exact ⟨line', List.mem_cons_of_mem _ there', own'⟩
  obtain ⟨line', there', own'⟩ := kept
  have filled : ¬ line'.isEmpty = true := fun empty => List.ne_nil_of_mem own' (List.isEmpty_iff.mp empty)
  rw [withoutMargin_eq split]
  exact (infix_intercalate _ (mem_trimBy_of_neg there' filled)).subset own'

section blank
variable (blank : ∀ c ∈ doc, isBlank c = true)
include blank

theorem withoutMargin_of_blank (split : splitAtEach '\n' (expandTabs 0 doc) = first :: more) :
    withoutMargin doc = ['\n'].intercalate (trimBy List.isEmpty ([] :: more)) := by
  have inside : ∀ line ∈ first :: more, ∀ c ∈ line, isBlank c = true := fun line mem c own =>
    blank_of_mem_expandTabs blank 0 c (subset_of_mem_splitAtEach (split ▸ mem) own)
  obtain ⟨own, others⟩ := List.forall_mem_cons.mp inside
  rw [withoutMargin_eq split, withoutShared_of_blank others, List.dropWhile_eq_nil_iff.mpr own]

theorem blank_withoutMargin : ∀ c ∈ withoutMargin doc, isBlank c = true := by
  obtain ⟨first, more, split⟩ := List.exists_cons_of_ne_nil (splitAtEach_ne_nil '\n' (expandTabs 0 doc))
  rw [withoutMargin_of_blank blank split]
  intro c mem
  obtain between | ⟨line, kept, own⟩ := mem_intercalate mem
  · rw [List.mem_singleton.mp between]
    rfl
  · obtain rfl | later := List.mem_cons.mp (trimBy_subset _ _ kept)
    · cases own
    · exact blank_of_mem_expandTabs blank 0 c
        (subset_of_mem_splitAtEach (split ▸ List.mem_cons_of_mem first later) own)

/-- White space without its margin is empty unless there is more than line feeds after the first line. -/
theorem withoutMargin_ne_nil_iff : withoutMargin doc ≠ [] ↔ ∃ c ∈ doc.dropWhile (· != '\n'), c ≠ '\n' := by
  obtain ⟨first, more, split⟩ := List.exists_cons_of_ne_nil (splitAtEach_ne_nil '\n' (expandTabs 0 doc))
  rw [← exists_after_newline_expandTabs_iff 0, ← exists_filled_later_piece_iff split, withoutMargin_of_blank blank split]
  constructor
  · intro filled
    by_contra none
    have empty : ∀ line ∈ [] :: more, line.isEmpty = true := by simpa using none
    rw [trimBy_eq_nil_of_pos empty] at filled
    exact filled rfl
  · rintro ⟨line, mem, filled⟩ none
    have kept : line ∈ trimBy List.isEmpty ([] :: more) :=
      mem_trimBy_of_neg (List.mem_cons_of_mem _ mem) fun empty => filled (List.isEmpty_iff.mp empty)
    have part := infix_intercalate ['\n'] kept
    rw [none] at part
    exact filled (List.eq_nil_of_infix_nil part)

end blank

/-- A text that documents something has a first line, or is empty, unless it is a block of white space. -/
theorem firstDocLine_eq (doc : List Char) :
    firstDocLine doc = if BlankBlock doc then .error .outOfRange else .ok (docDetail doc) := by
  have known : firstDocLine doc =
      if withoutMargin doc ≠ [] ∧ trimChars (withoutMargin doc) = [] then .error .outOfRange else .ok (docDetail doc) := by
    unfold firstDocLine docDetail
    cases withoutMargin doc with
    | nil => rfl
    | cons c cs =>
      dsimp only
      cases shown : lines (trimChars (c :: cs)) with
      | nil =>
        rw [if_pos ⟨List.cons_ne_nil c cs, (lines_eq_nil_iff _).mp shown⟩]
      | cons line more =>
        rw [if_neg fun none => ?_]
        · rfl
        · rw [(lines_eq_nil_iff _).mpr none.2] at shown
          cases shown
  rw [known]
  refine if_congr ?_ rfl rfl
  by_cases blank : ∀ c ∈ doc, isBlank c = true
  · have all : trimChars (withoutMargin doc) = [] := trimBy_eq_nil_of_pos (blank_withoutMargin blank)
    rw [and_iff_left all, withoutMargin_ne_nil_iff blank, blankBlock_iff, and_iff_right blank]
  · refine iff_of_false (fun none => blank fun c mem => ?_) fun block => blank ((blankBlock_iff doc).mp block).1
    by_contra ink
    have there : c ∈ trimChars (withoutMargin doc) := mem_trimBy_of_neg (mem_withoutMargin mem ink) ink
    rw [none.2] at there
    cases there

end doc
end CodeAgent
