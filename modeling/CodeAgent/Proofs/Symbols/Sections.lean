import CodeAgent.Proofs.Symbols.HeadingLine
import CodeAgent.Proofs.Symbols.OutlineTree

/-! The sections of a Markdown text: the headings in order, each with the lines up to the next heading that is no
deeper, and each among the sections of the heading that it stands below. -/
namespace CodeAgent
open CodeAgent.Text

/-- The hash signs before the heading of a section. -/
def OutlineSymbol.marks (s : OutlineSymbol) : Nat := (s.detail.getD "").length

/-- Sections follow each other: each ends before the next one starts. -/
def OutlineSymbol.Apart (ss : List OutlineSymbol) : Prop :=
  ss.Pairwise fun s t => s.endLine < t.startLine

/-- The sections inside a section are deeper, and they follow each other within its lines after the first one. -/
structure OutlineSymbol.Nests (s : OutlineSymbol) : Prop where
  spans : s.startLine ≤ s.endLine
  deeper : ∀ t ∈ s.children, s.marks < t.marks
  inside : ∀ t ∈ s.children, s.startLine < t.startLine ∧ t.endLine ≤ s.endLine
  apart : Apart s.children

namespace Heading
open OutlineSymbol

/-- A heading stands in lines: the line of its number has its level and its title, is no fence, and stands after as many
opening as closing ones. -/
def StandsIn (ls : List (List Char)) (h : Heading) : Prop :=
  ∃ n line, h.line = n + 1 ∧ ls[n]? = some line ∧ isFence line = false ∧ (ls.take n).countP isFence % 2 = 0 ∧
    ∃ p : Parts, p.FirstOf line ∧ p.marks.length = h.level ∧ String.ofList p.title = h.title

/-- The last line of the section of a heading: the one before the next heading that is no deeper, or the last one. -/
def sectionEnd (last : Nat) (h : Heading) (later : List Heading) : Nat :=
  match later.find? fun k => decide (k.level ≤ h.level) with
  | some k => k.line - 1
  | none => last

/-- The symbol of a heading whose section ends at a line. -/
def toHead (h : Heading) (ending : Nat) : Head :=
  { name := h.title, kind := .string, detail := some (String.ofList (List.replicate h.level '#'))
    startLine := h.line, endLine := ending }

/-- The section of a heading that ends at a line and has sections inside it. -/
def toSection (h : Heading) (ending : Nat) (inner : List OutlineSymbol) : OutlineSymbol :=
  .mk h.title .string (some (String.ofList (List.replicate h.level '#'))) h.line ending inner

/-- The symbols of headings in order. -/
def heads (last : Nat) : List Heading → List Head
  | [] => []
  | h :: later => h.toHead (sectionEnd last h later) :: heads last later

/-- Headings have increasing lines up to a last one. -/
structure Ordered (last : Nat) (hs : List Heading) : Prop where
  increasing : hs.Pairwise (·.line < ·.line)
  positive : ∀ h ∈ hs, 0 < h.line
  within : ∀ h ∈ hs, h.line ≤ last

/-- Sections of headings: they are those of the headings in order, they nest, and the outer ones follow each other. -/
structure Sectioned (last : Nat) (hs : List Heading) (ss : List OutlineSymbol) : Prop where
  listed : (preorderOfList ss).map head = heads last hs
  nested : ∀ s ∈ preorderOfList ss, s.Nests
  apart : Apart ss

section collect
variable {ls more : List (List Char)} {line : List Char} {inFence : Bool} {number : Nat} {h : Heading}

/-- A heading stands in lines that are numbered from a number on and may start in a fenced block. -/
def StandsFrom (inFence : Bool) (number : Nat) (ls : List (List Char)) (h : Heading) : Prop :=
  ∃ n line, h.line = number + n ∧ ls[n]? = some line ∧ isFence line = false ∧
    ((ls.take n).countP isFence + inFence.toNat) % 2 = 0 ∧ ofLine? line = some (h.level, h.title)

theorem even_add_toNat (n : Nat) (a b : Bool) :
    (n + a.toNat + b.toNat) % 2 = 0 ↔ (n + (b ^^ a).toNat) % 2 = 0 := by
  cases a <;> cases b
  all_goals simp only [Bool.toNat_true, Bool.toNat_false, Bool.xor_true, Bool.xor_false, Bool.not_true, Bool.not_false]
  all_goals omega

theorem standsFrom_cons : StandsFrom inFence number (line :: more) h ↔
    (h.line = number ∧ isFence line = false ∧ inFence = false ∧ ofLine? line = some (h.level, h.title)) ∨
      StandsFrom (inFence ^^ isFence line) (number + 1) more h := by
  unfold StandsFrom
  rw [← Nat.or_exists_add_one]
  refine or_congr ?_ (exists_congr fun n => exists_congr fun l => ?_)
  · cases inFence <;> simp
  · have fences : ((line :: more).take (n + 1)).countP isFence + inFence.toNat =
        (more.take n).countP isFence + (isFence line).toNat + inFence.toNat := by
      rw [List.take_succ_cons, List.countP_cons]
      cases isFence line <;> rfl
    rw [List.getElem?_cons_succ, fences, Nat.add_right_comm number 1 n, Nat.add_assoc number n 1]
    refine and_congr_right fun _ => and_congr_right fun _ => and_congr_right fun _ => and_congr_left fun _ => ?_
    exact even_add_toNat _ _ _

theorem mem_collect_iff : h ∈ collect inFence number ls ↔ StandsFrom inFence number ls h := by
  induction ls generalizing inFence number with
  | nil => simp [collect, StandsFrom]
  | cons line more ih =>
    rw [collect, standsFrom_cons]
    split
    · next fence => rw [ih, fence, Bool.xor_true]; simp
    · next fence =>
      rw [Bool.not_eq_true] at fence
      rw [fence, Bool.xor_false, ← ih]
      split
      · next level title here =>
        obtain ⟨out, here⟩ : inFence = false ∧ ofLine? line = some (level, title) := by simpa using here
        rw [List.mem_cons, here, out]
        refine or_congr_left ?_
        constructor
        · rintro rfl
          exact ⟨rfl, rfl, rfl, rfl⟩
        · rintro ⟨rfl, -, -, same⟩
          cases same
          rfl
      · next nowhere =>
        refine (or_iff_right ?_).symm
        rintro ⟨-, -, out, here⟩
        rw [out, here] at nowhere
        exact nomatch nowhere

theorem collect_increasing : (collect inFence number ls).Pairwise (·.line < ·.line) := by
  induction ls generalizing inFence number with
  | nil => exact List.Pairwise.nil
  | cons line more ih =>
    rw [collect]
    split
    · exact ih
    · split
      · refine List.Pairwise.cons (fun k later => ?_) ih
        obtain ⟨n, _, line, -⟩ := mem_collect_iff.mp later
        dsimp only
        omega
      · exact ih

theorem mem_collect_lines_iff (ls : List (List Char)) (h : Heading) : h ∈ collect false 1 ls ↔ h.StandsIn ls := by
  rw [mem_collect_iff]
  refine exists_congr fun n => exists_congr fun line => ?_
  rw [ofLine?_eq_some_iff, Nat.add_comm 1 n]
  rfl

theorem ordered_collect (ls : List (List Char)) : Ordered ls.length (collect false 1 ls) where
  increasing := collect_increasing
  positive h mem := by
    obtain ⟨n, line, number, -⟩ := mem_collect_iff.mp mem
    omega
  within h mem := by
    obtain ⟨n, line, number, there, -⟩ := mem_collect_iff.mp mem
    obtain ⟨short, -⟩ := List.getElem?_eq_some_iff.mp there
    omega

end collect

section sections
variable {last : Nat} {h k : Heading} {hs later : List Heading}

theorem below_append_after (h : Heading) (hs : List Heading) : h.below hs ++ h.after hs = hs :=
  List.takeWhile_append_dropWhile

theorem level_lt_of_mem_below (mem : k ∈ h.below hs) : h.level < k.level := by
  simpa using List.mem_takeWhile_imp mem

theorem mem_of_mem_below (mem : k ∈ h.below hs) : k ∈ hs :=
  (List.takeWhile_prefix _).subset mem

theorem mem_of_mem_after (mem : k ∈ h.after hs) : k ∈ hs :=
  (List.dropWhile_suffix _).subset mem

theorem after_cons_of_lt (deeper : h.level < k.level) : h.after (k :: hs) = h.after hs :=
  List.dropWhile_cons_of_pos (decide_eq_true deeper)

theorem after_cons_of_le (ends : k.level ≤ h.level) : h.after (k :: hs) = k :: hs :=
  List.dropWhile_cons_of_neg (by simpa using ends)

theorem below_cons_of_lt (deeper : h.level < k.level) : h.below (k :: hs) = k :: h.below hs :=
  List.takeWhile_cons_of_pos (decide_eq_true deeper)

theorem below_cons_of_le (ends : k.level ≤ h.level) : h.below (k :: hs) = [] :=
  List.takeWhile_cons_of_neg (by simpa using ends)

theorem level_le_of_after (first : h.after hs = k :: later) : k.level ≤ h.level := by
  have stops := List.head?_dropWhile_not (fun m : Heading => decide (h.level < m.level)) hs
  rw [← after, first] at stops
  simpa using stops

/-- Where the section of a heading ends, given the headings from the next one on that is no deeper. -/
def endBefore (last : Nat) : List Heading → Nat
  | [] => last
  | k :: _ => k.line - 1

theorem sections_cons (last : Nat) (h : Heading) (hs : List Heading) : sections last (h :: hs) =
    h.toSection (endBefore last (h.after hs)) (sections (endBefore last (h.after hs)) (h.below hs)) ::
      sections last (h.after hs) := by
  rw [sections]
  cases h.after hs <;> rfl

theorem sectionEnd_eq (last : Nat) (h : Heading) (hs : List Heading) :
    sectionEnd last h hs = endBefore last (h.after hs) := by
  induction hs with
  | nil => rfl
  | cons k hs ih =>
    by_cases deeper : h.level < k.level
    · rw [after_cons_of_lt deeper, ← ih, sectionEnd, sectionEnd, List.find?_cons_of_neg (by simpa using deeper)]
    · have ends := Nat.le_of_not_lt deeper
      rw [after_cons_of_le ends, sectionEnd, List.find?_cons_of_pos (by simpa using ends)]
      rfl

/-- The section of a heading that is deeper than another one ends in the section of that one. -/
theorem sectionEnd_append (deeper : h.level < k.level) (later hs : List Heading) :
    sectionEnd last k (later ++ h.after hs) = sectionEnd (endBefore last (h.after hs)) k later := by
  unfold sectionEnd
  rw [List.find?_append]
  cases later.find? fun m => decide (m.level ≤ k.level) with
  | some m => rfl
  | none =>
    rw [Option.none_or]
    cases rest : h.after hs with
    | nil => rfl
    | cons m ms =>
      -- The heading that ends the outer section is not deeper than the inner one either.
      have ends : m.level ≤ k.level := Nat.le_trans (level_le_of_after rest) (Nat.le_of_lt deeper)
      rw [List.find?_cons_of_pos (by simpa using ends)]
      rfl

theorem heads_append (last : Nat) (hs : List Heading) (deeper : ∀ k ∈ later, h.level < k.level) :
    heads last (later ++ h.after hs) =
      heads (endBefore last (h.after hs)) later ++ heads last (h.after hs) := by
  induction later with
  | nil => rfl
  | cons k later ih =>
    rw [List.cons_append, heads, heads, sectionEnd_append (deeper k List.mem_cons_self),
      ih fun m mem => deeper m (List.mem_cons_of_mem k mem), List.cons_append]

theorem Ordered.tail (ordered : Ordered last (h :: hs)) : Ordered last hs where
  increasing := (List.pairwise_cons.mp ordered.increasing).2
  positive k mem := ordered.positive k (List.mem_cons_of_mem h mem)
  within k mem := ordered.within k (List.mem_cons_of_mem h mem)

theorem Ordered.first_lt (ordered : Ordered last (h :: hs)) (mem : k ∈ hs) : h.line < k.line :=
  (List.pairwise_cons.mp ordered.increasing).1 k mem

theorem Ordered.after (ordered : Ordered last (h :: hs)) : Ordered last (h.after hs) where
  increasing := ordered.tail.increasing.sublist (List.dropWhile_sublist _)
  positive k mem := ordered.tail.positive k (mem_of_mem_after mem)
  within k mem := ordered.tail.within k (mem_of_mem_after mem)

theorem Ordered.below (ordered : Ordered last (h :: hs)) : Ordered (endBefore last (h.after hs)) (h.below hs) where
  increasing := ordered.tail.increasing.sublist (List.takeWhile_sublist _)
  positive k mem := ordered.tail.positive k (mem_of_mem_below mem)
  within k mem := by
    cases rest : h.after hs with
    | nil => exact ordered.tail.within k (mem_of_mem_below mem)
    | cons m ms =>
      have increasing : (h.below hs ++ h.after hs).Pairwise (·.line < ·.line) := by
        rw [below_append_after]
        exact ordered.tail.increasing
      have before := (List.pairwise_append.mp increasing).2.2 k mem m (rest ▸ List.mem_cons_self)
      exact Nat.le_sub_one_of_lt before

/-- A section has lines of its own up to its end, which is no later than the last line and comes before all that is not
below its heading. -/
theorem Ordered.ending (ordered : Ordered last (h :: hs)) : h.line ≤ endBefore last (h.after hs) ∧
    endBefore last (h.after hs) ≤ last ∧ ∀ k ∈ h.after hs, endBefore last (h.after hs) < k.line := by
  have rest := ordered.after
  cases more : h.after hs with
  | nil => exact ⟨ordered.within h List.mem_cons_self, Nat.le_refl last, fun k mem => absurd mem List.not_mem_nil⟩
  | cons m ms =>
    rw [more] at rest
    have later : h.line < m.line := ordered.first_lt (mem_of_mem_after (more ▸ List.mem_cons_self))
    have short := rest.within m List.mem_cons_self
    simp only [endBefore]
    refine ⟨by omega, by omega, fun k mem => ?_⟩
    obtain rfl | behind := List.mem_cons.mp mem
    · omega
    · have := rest.first_lt behind
      omega

/-- The symbols of headings are of one heading each, and end no later than the last line. -/
theorem exists_of_mem_heads {head : Head} (ordered : Ordered last hs) (mem : head ∈ heads last hs) :
    ∃ k ∈ hs, ∃ ending, head = k.toHead ending ∧ ending ≤ last := by
  induction hs with
  | nil => exact absurd mem List.not_mem_nil
  | cons k hs ih =>
    rw [heads] at mem
    obtain rfl | later := List.mem_cons.mp mem
    · exact ⟨k, List.mem_cons_self, _, rfl, sectionEnd_eq last k hs ▸ ordered.ending.2.1⟩
    · obtain ⟨m, mem, found⟩ := ih ordered.tail later
      exact ⟨m, List.mem_cons_of_mem k mem, found⟩

/-- The outer sections are of one heading each, and end no later than the last line. -/
theorem Sectioned.exists_of_mem {ss : List OutlineSymbol} {s : OutlineSymbol} (ordered : Ordered last hs)
    (sectioned : Sectioned last hs ss) (mem : s ∈ ss) :
    ∃ k ∈ hs, s.startLine = k.line ∧ s.endLine ≤ last ∧ s.marks = k.level := by
  have listed : s.head ∈ heads last hs := by
    rw [← sectioned.listed]
    exact List.mem_map_of_mem (mem_preorderOfList_of_mem mem)
  obtain ⟨k, here, ending, head, short⟩ := exists_of_mem_heads ordered listed
  refine ⟨k, here, ?_, ?_, ?_⟩
  · rw [← head_startLine, head]
    rfl
  · rw [← head_endLine, head]
    exact Int.ofNat_le.mpr short
  · rw [marks, ← head_detail, head]
    simp [toHead]

/-- A heading with the sections of those below it, before the sections of the headings after them. -/
theorem Sectioned.cons {inner outer : List OutlineSymbol} (ordered : Ordered last (h :: hs))
    (below : Sectioned (endBefore last (h.after hs)) (h.below hs) inner)
    (after : Sectioned last (h.after hs) outer) :
    Sectioned last (h :: hs) (h.toSection (endBefore last (h.after hs)) inner :: outer) where
  listed := by
    have parts := heads_append last hs fun k (mem : k ∈ h.below hs) => level_lt_of_mem_below mem
    rw [below_append_after] at parts
    rw [preorderOfList, toSection, preorder, List.map_append, List.map_cons, below.listed, after.listed, heads, parts,
      sectionEnd_eq]
    rfl
  nested s mem := by
    rw [preorderOfList, toSection, preorder, List.cons_append, List.mem_cons, List.mem_append] at mem
    obtain rfl | inside | behind := mem
    · refine ⟨Int.ofNat_le.mpr ordered.ending.1, fun t mem => ?_, fun t mem => ?_, below.apart⟩
      · obtain ⟨k, here, -, -, level⟩ := below.exists_of_mem ordered.below mem
        rw [level]
        simpa [marks, OutlineSymbol.detail] using level_lt_of_mem_below here
      · obtain ⟨k, here, line, short, -⟩ := below.exists_of_mem ordered.below mem
        refine ⟨?_, short⟩
        rw [line]
        exact Int.ofNat_lt.mpr (ordered.first_lt (mem_of_mem_below here))
    · exact below.nested s inside
    · exact after.nested s behind
  apart := by
    refine List.Pairwise.cons (fun t mem => ?_) after.apart
    obtain ⟨k, here, line, -⟩ := after.exists_of_mem ordered.after mem
    rw [line]
    exact Int.ofNat_lt.mpr (ordered.ending.2.2 k here)

theorem sections_sectioned (ordered : Ordered last hs) : Sectioned last hs (sections last hs) := by
  induction last, hs using sections.induct with
  | case1 last =>
    rw [sections]
    exact ⟨rfl, fun s mem => absurd mem List.not_mem_nil, List.Pairwise.nil⟩
  | case2 last h hs next ending below after =>
    rw [sections_cons]
    have ends : ending = endBefore last (h.after hs) := by
      change (match h.after hs with | [] => last | k :: _ => k.line - 1) = _
      cases h.after hs <;> rfl
    -- The headings below the first one are cut into sections up to the end of its own.
    rw [ends] at below
    exact .cons ordered (below ordered.below) (after ordered.after)

end sections

end Heading

/-- Each symbol of the outline of a text has the title and the line of a heading that stands in the text. -/
theorem exists_standsIn_of_mem_markdownOutline {cs : List Char} {s : OutlineSymbol}
    (mem : s ∈ OutlineSymbol.preorderOfList (markdownOutline cs)) :
    ∃ h : Heading, h.StandsIn (lines cs) ∧ s.name = h.title ∧ s.startLine = h.line := by
  have ordered := Heading.ordered_collect (lines cs)
  have listed : s.head ∈ Heading.heads (lines cs).length (Heading.collect false 1 (lines cs)) := by
    rw [← (Heading.sections_sectioned ordered).listed]
    exact List.mem_map_of_mem mem
  obtain ⟨h, here, ending, head, -⟩ := Heading.exists_of_mem_heads ordered listed
  refine ⟨h, (Heading.mem_collect_lines_iff (lines cs) h).mp here, ?_, ?_⟩
  · rw [← OutlineSymbol.head_name, head]
    rfl
  · rw [← OutlineSymbol.head_startLine, head]
    rfl

/-- The outline of a text has one section for each heading that stands in its lines, in order. Each has the title and
the marks of its heading, and the lines up to the next heading that is no deeper. The sections in a section are deeper and
follow each other within its lines after the first one, and the outer sections follow each other, too. -/
theorem markdownOutline_sections (cs : List Char) :
    ∃ hs : List Heading, hs.Pairwise (·.line < ·.line) ∧ (∀ h, h ∈ hs ↔ h.StandsIn (lines cs)) ∧
      (OutlineSymbol.preorderOfList (markdownOutline cs)).map OutlineSymbol.head =
        Heading.heads (lines cs).length hs ∧
      (∀ s ∈ OutlineSymbol.preorderOfList (markdownOutline cs), s.Nests) ∧
      OutlineSymbol.Apart (markdownOutline cs) := by
  have sectioned := Heading.sections_sectioned (Heading.ordered_collect (lines cs))
  exact ⟨_, Heading.collect_increasing, Heading.mem_collect_lines_iff (lines cs), sectioned.listed, sectioned.nested,
    sectioned.apart⟩

/-! Sections in one pass over the headings: those that have started and not ended are on a stack. -/

namespace Heading

/-- A section that has not ended, with the sections inside it that have. -/
structure Open where
  heading : Heading
  inner : List OutlineSymbol

/-- End the open sections from the inmost one on that are no less deep than a level: the others, and the outer sections
that have ended. What ended before goes into the first section that stays open. -/
def close (level ending : Nat) (ended : List OutlineSymbol) : List Open → List Open × List OutlineSymbol
  | [] => ([], ended)
  | s :: stack =>
    if level ≤ s.heading.level then close level ending [s.heading.toSection ending (s.inner ++ ended)] stack
    else (⟨s.heading, s.inner ++ ended⟩ :: stack, [])

/-- Sections with the open ones on a stack: a heading ends those that are no less deep, and starts its own. -/
def pass (last : Nat) (stack : List Open) : List Heading → List OutlineSymbol
  | [] => (close 0 last [] stack).2
  | h :: hs =>
    let (remaining, ended) := close h.level (h.line - 1) [] stack
    ended ++ pass last (⟨h, []⟩ :: remaining) hs

/-- What becomes of open sections, of what ended inside the inmost one, and of the headings to come. -/
def outcome (last : Nat) (ended : List OutlineSymbol) : List Open → List Heading → List OutlineSymbol
  | [], hs => ended ++ sections last hs
  | s :: stack, hs =>
    let ending := endBefore last (s.heading.after hs)
    outcome last [s.heading.toSection ending (s.inner ++ ended ++ sections ending (s.heading.below hs))] stack
      (s.heading.after hs)

/-- The sections inside a section and those after it, seen from a heading that is less deep. -/
theorem below_after {h k : Heading} (deeper : h.level < k.level) (last : Nat) (hs : List Heading) :
    h.after (k.after hs) = h.after hs ∧ k.below (h.below hs) = k.below hs ∧
      k.after (h.below hs) = h.below (k.after hs) ∧
      endBefore (endBefore last (h.after hs)) (k.after (h.below hs)) = endBefore last (k.after hs) := by
  induction hs with
  | nil => exact ⟨rfl, rfl, rfl, rfl⟩
  | cons m hs ih =>
    by_cases inner : k.level < m.level
    · have outer : h.level < m.level := Nat.lt_trans deeper inner
      rw [after_cons_of_lt inner, after_cons_of_lt outer, below_cons_of_lt inner, below_cons_of_lt outer,
        below_cons_of_lt inner, after_cons_of_lt inner]
      exact ⟨ih.1, congrArg _ ih.2.1, ih.2.2⟩
    · have ends := Nat.le_of_not_lt inner
      rw [after_cons_of_le ends, below_cons_of_le ends]
      by_cases outer : h.level < m.level
      · rw [below_cons_of_lt outer, below_cons_of_le ends, after_cons_of_le ends]
        exact ⟨rfl, rfl, rfl, rfl⟩
      · have stops := Nat.le_of_not_lt outer
        rw [below_cons_of_le stops, after_cons_of_le stops]
        exact ⟨rfl, rfl, rfl, rfl⟩

/-- After the last heading all sections end at the last line. -/
theorem outcome_nil (last : Nat) (ended : List OutlineSymbol) (stack : List Open) :
    outcome last ended stack [] = (close 0 last ended stack).2 := by
  induction stack generalizing ended with
  | nil => rw [outcome, sections, List.append_nil]; rfl
  | cons s stack ih =>
    rw [outcome, close, if_pos (Nat.zero_le _), ← ih]
    change outcome last [s.heading.toSection last (s.inner ++ ended ++ sections last [])] stack [] = _
    rw [sections, List.append_nil]

/-- A heading ends the sections that are no less deep, and starts its own. -/
theorem outcome_cons (last : Nat) (ended : List OutlineSymbol) (stack : List Open) (h : Heading) (hs : List Heading) :
    outcome last ended stack (h :: hs) =
      (close h.level (h.line - 1) ended stack).2 ++
        outcome last [] (⟨h, []⟩ :: (close h.level (h.line - 1) ended stack).1) hs := by
  induction stack generalizing ended with
  | nil =>
    rw [outcome, sections_cons, close]
    rfl
  | cons s stack ih =>
    by_cases ends : h.level ≤ s.heading.level
    · rw [outcome, close, if_pos ends, ← ih, after_cons_of_le ends, below_cons_of_le ends, sections,
        List.append_nil]
      rfl
    · -- The section on top of the stack stays open, and the new one is inside it.
      have deeper := Nat.lt_of_not_le ends
      obtain ⟨after, below, next, ending⟩ := below_after deeper last hs
      rw [outcome, close, if_neg ends, outcome, outcome, after_cons_of_lt deeper, below_cons_of_lt deeper,
        sections_cons, after, ending, below, next]
      simp only [List.nil_append, List.append_assoc, List.singleton_append]

theorem pass_eq_outcome (last : Nat) (stack : List Open) (hs : List Heading) :
    pass last stack hs = outcome last [] stack hs := by
  induction hs generalizing stack with
  | nil => rw [pass, outcome_nil]
  | cons h hs ih => rw [pass, outcome_cons, ← ih]

/-- The pass over the headings finds their sections. -/
theorem pass_eq_sections (last : Nat) (hs : List Heading) : pass last [] hs = sections last hs := by
  rw [pass_eq_outcome, outcome, List.nil_append]

end Heading

/-- The outline of a text comes of one pass over its headings. -/
theorem markdownOutline_eq_pass (cs : List Char) : markdownOutline cs =
    Heading.pass (Text.lines cs).length [] (Heading.collect false 1 (Text.lines cs)) :=
  (Heading.pass_eq_sections _ _).symm

end CodeAgent
