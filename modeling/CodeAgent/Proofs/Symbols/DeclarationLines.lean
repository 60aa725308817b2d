import Mathlib.Data.List.Forall2
import CodeAgent.Proofs.Symbols.ResolvedNodes
import CodeAgent.Proofs.Text.Blank
import CodeAgent.Proofs.Text.SourceLines

/-! What is said about the symbols of a syntax tree: the line of running text that has the number of the row on which the
node starts. Rows are counted by line feeds only, so that this is a line of the row, or of one further up. -/
namespace CodeAgent
open CodeAgent.Text

/-- What a line says about the symbol that is declared on it. -/
def lineDetail (line : List Char) : Option String :=
  match (trimChars line).take maxDetailLength with
  | [] => none
  | cs => some (String.ofList cs)

section line
variable {line rest : List Char}

theorem lineDetail_eq_iff {other : List Char} : lineDetail line = lineDetail other ↔
    (trimChars line).take maxDetailLength = (trimChars other).take maxDetailLength := by
  refine ⟨fun same => ?_, fun same => by rw [lineDetail, lineDetail, same]⟩
  unfold lineDetail at same
  split at same
  · next none =>
    split at same
    · next none' => rw [none, none']
    · cases same
  · split at same
    · cases same
    · exact String.ofList_injective (Option.some.inj same)

/-- What follows a line changes what it says unless it is blank, or the line says as much as is shown. -/
theorem lineDetail_append_eq_iff : lineDetail line = lineDetail (line ++ rest) ↔
    (∀ c ∈ rest, isBlank c = true) ∨ maxDetailLength ≤ (trimChars line).length := by
  rw [lineDetail_eq_iff]
  by_cases blank : ∀ c ∈ rest, isBlank c = true
  · refine iff_of_true ?_ (.inl blank)
    rw [trimChars, trimChars, trimBy_append_of_pos blank]
  · obtain ⟨more, whole⟩ : trimChars line <+: trimChars (line ++ rest) := trimBy_prefix_append line rest
    have filled : more ≠ [] := by
      rintro rfl
      rw [List.append_nil] at whole
      have inked : ink line = ink line + ink rest := by
        rw [← ink_append, ← ink_trimChars line, whole, ink_trimChars]
      refine blank fun c mem => ?_
      have none : ink rest = 0 := Nat.left_eq_add.mp inked
      simpa using List.countP_eq_zero.mp none c mem
    rw [← whole, or_iff_right blank, List.take_append, List.self_eq_append_right, List.take_eq_nil_iff,
      or_iff_left filled, Nat.sub_eq_zero_iff_le]

end line

/-- The text of a row of a source. -/
def sourceRow (source : Bytes) (row : Nat) : List Char :=
  Utf8.decode ((splitAtEach Utf8.newline source)[row]?.getD [])

/-- The line of running text that has the number of a row. -/
def runningLine (source : Bytes) (row : Nat) : List Char :=
  (lines (Utf8.decode source))[row]?.getD []

theorem declarationLine_eq (source : Bytes) (row : Nat) :
    declarationLine (lines (Utf8.decode source)) row = lineDetail (runningLine source row) := rfl

/-- The number of lines of running text before a row that have ends without a line feed. -/
def otherEnds (source : Bytes) (row : Nat) : Nat :=
  unfedBefore (lineRuns (Utf8.decode source)) row

/-- What is said about a symbol that is declared on a row comes from the line that has the number of the row. It stands
in the row that is as many further up as there were ends of lines without a line feed; if there were none, it starts the
row, and what is said is what the row says unless the row goes on after the line and less is shown of it. -/
structure Declared (source : Bytes) (row : Nat) (detail : Option String) : Prop where
  shown : detail = lineDetail (runningLine source row)
  stands : ∃ before after, sourceRow source (row - otherEnds source row) = before ++ runningLine source row ++ after
  starts : otherEnds source row = 0 → ∃ rest, sourceRow source row = runningLine source row ++ rest ∧
    (detail = lineDetail (sourceRow source row) ↔
      (∀ c ∈ rest, isBlank c = true) ∨ maxDetailLength ≤ (trimChars (runningLine source row)).length)

theorem sourceRow_eq (source : Bytes) (row : Nat) :
    sourceRow source row = (rowsOf (lineRuns (Utf8.decode source)))[row]?.getD [] := by
  rw [← splitAtEach_eq_rowsOf, ← Utf8.map_decode_splitAtEach, List.getElem?_map, sourceRow]
  cases (splitAtEach Utf8.newline source)[row]? <;> rfl

theorem declared_lineDetail (source : Bytes) (row : Nat) : Declared source row (lineDetail (runningLine source row)) := by
  have line : runningLine source row = ((lineRuns (Utf8.decode source))[row]?.map Prod.fst).getD [] := by
    rw [runningLine, lines, List.getElem?_map]
  cases there : (lineRuns (Utf8.decode source))[row]? with
  | none =>
    rw [there] at line
    refine ⟨rfl, ⟨[], sourceRow source (row - otherEnds source row), by rw [line]; rfl⟩, fun fed => ⟨[], ?_, ?_⟩⟩
    · rw [line, sourceRow_eq, row_of_no_line there fed]
      rfl
    · rw [line, sourceRow_eq, row_of_no_line there fed]
      simp
  | some run =>
    rw [there] at line
    obtain ⟨before, after, stands, starts⟩ := exists_row_of_line there
    have row_eq : sourceRow source (row - otherEnds source row) = before ++ runningLine source row ++ after := by
      rw [sourceRow_eq, otherEnds, stands, line]
      rfl
    refine ⟨rfl, ⟨before, after, row_eq⟩, fun fed => ⟨after, ?_⟩⟩
    rw [fed, Nat.sub_zero, starts fed, List.nil_append] at row_eq
    exact ⟨row_eq, by rw [row_eq]; exact lineDetail_append_eq_iff⟩

namespace SyntaxNode
variable {language : Language} {ls : List (List Char)}

/-- The named nodes below one in which there is found a symbol, in order. -/
def declarations (root : SyntaxNode) (language : Language) : List SyntaxNode :=
  ((trailsOfList [] root.children).map (·.2)).filter fun n => (language.resolve? n).isSome

end SyntaxNode

namespace OutlineSymbol

mutual

theorem map_trails (above : List Head) : ∀ s : OutlineSymbol, (trails above s).map (·.2) = s.preorder.map head
  | mk name kind detail startLine endLine children => by
    rw [trails, preorder, List.map_cons, List.map_cons, map_trailsOfList _ children]
    rfl

/-- The symbols of an outline come in one order, with what they stand in or without it. -/
theorem map_trailsOfList (above : List Head) : ∀ ss : List OutlineSymbol,
    (trailsOfList above ss).map (·.2) = (preorderOfList ss).map head
  | [] => rfl
  | s :: ss => by
    rw [trailsOfList, preorderOfList, List.map_append, List.map_append, map_trails above s, map_trailsOfList above ss]

end

end OutlineSymbol

namespace SyntaxNode
variable {language : Language}

theorem map_detail_filterMap_trail? (language : Language) (source : Bytes) (trails : List (List SyntaxNode × SyntaxNode)) :
    (trails.filterMap (language.trail? (lines (Utf8.decode source)))).map (·.2.detail) =
      ((trails.map (·.2)).filter fun n => (language.resolve? n).isSome).map
        fun n => lineDetail (runningLine source n.firstRow) := by
  induction trails with
  | nil => rfl
  | cons trail trails ih =>
    rw [List.filterMap_cons, List.map_cons, List.filter_cons, Language.trail?, Language.head?]
    cases language.resolve? trail.2 with
    | none => exact ih
    | some resolved => exact congrArg₂ (· :: ·) (declarationLine_eq source trail.2.firstRow) ih

/-- The details of an outline are those of the nodes in which its symbols are found. -/
theorem map_detail_outline (root : SyntaxNode) (language : Language) (source : Bytes) :
    (OutlineSymbol.preorderOfList (root.outline language source)).map (·.detail) =
      (root.declarations language).map fun n => lineDetail (runningLine source n.firstRow) := by
  have trails := (outline_eq_iff root language source _).mp rfl
  calc
    _ = ((OutlineSymbol.preorderOfList (root.outline language source)).map OutlineSymbol.head).map (·.detail) := by
      rw [List.map_map]
      exact List.map_congr_left fun s _ => (OutlineSymbol.head_detail s).symm
    _ = (OutlineSymbol.trailsOfList [] (root.outline language source)).map (·.2.detail) := by
      rw [← OutlineSymbol.map_trailsOfList [], List.map_map]
      rfl
    _ = _ := by rw [trails, map_detail_filterMap_trail?]; rfl

/-- Every symbol of the outline of a syntax tree is declared on the first row of its node. -/
theorem outline_declared_on_rows (root : SyntaxNode) (language : Language) (source : Bytes) :
    List.Forall₂ (fun n s => Declared source n.firstRow s.detail) (root.declarations language)
      (OutlineSymbol.preorderOfList (root.outline language source)) := by
  have same : List.Forall₂ (· = ·) ((root.declarations language).map fun n => lineDetail (runningLine source n.firstRow))
      ((OutlineSymbol.preorderOfList (root.outline language source)).map (·.detail)) := by
    rw [map_detail_outline, List.forall₂_eq_eq_eq]
  refine (List.forall₂_map_left_iff.mp (List.forall₂_map_right_iff.mp same)).imp fun n s detail => ?_
  rw [← detail]
  exact declared_lineDetail source n.firstRow

/-- The tree of a program with a function on its second row. -/
def functionOnSecondRow : SyntaxNode :=
  mk "program" none true none 0 2
    [mk "function_declaration" none true none 1 1
      [mk "identifier" (some "name") true (some (utf8Bytes "run")) 1 1 []]]

/-- After a line that a carriage return and a line feed end, what is said about a function is its row. -/
theorem detail_after_carriage_return :
    let source := utf8Bytes "// one\r\nfunction run() \x7b\x7d\r\n"
    ∃ s, OutlineSymbol.preorderOfList (functionOnSecondRow.outline .javascript source) = [s] ∧
      s.detail = lineDetail (sourceRow source 1) := by
  intro source
  have nodes : functionOnSecondRow.declarations .javascript = functionOnSecondRow.children := by rfl
  have declared := outline_declared_on_rows functionOnSecondRow .javascript source
  rw [nodes] at declared
  obtain ⟨s, rest, first, none, symbols⟩ := List.forall₂_cons_left_iff.mp declared
  obtain rfl := List.forall₂_nil_left_iff.mp none
  obtain ⟨rest, row, same⟩ := first.starts (by decide +kernel)
  have row_eq : sourceRow source 1 = runningLine source 1 ++ ['\r'] := by decide +kernel
  obtain rfl : rest = ['\r'] := List.append_cancel_left (row.symm.trans row_eq)
  exact ⟨s, symbols, same.mpr (.inl (List.forall_mem_singleton.mpr rfl))⟩

/-- After a line that a form feed ends, what is said about a function is the line before it. -/
theorem detail_after_form_feed :
    let source := utf8Bytes "// one\x0ctwo\nfunction run() \x7b\x7d\n"
    functionOnSecondRow.outline .javascript source = [.mk "run" .function (some "two") 2 2 []] ∧
      (functionOnSecondRow.declarations .javascript).map (fun n => lineDetail (sourceRow source n.firstRow)) =
        [some "function run() \x7b\x7d"] := by
  intro source
  refine ⟨(outline_eq_iff _ _ _ _).mpr (by decide +kernel), by decide +kernel⟩

end SyntaxNode
end CodeAgent
