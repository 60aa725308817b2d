import CodeAgent.Console.Layout
import CodeAgent.Console.Styled

/-! Tables in boxes of lines. -/
namespace CodeAgent.Console
open CodeAgent.Text

/-- A column: its heading, and where its cells stand. -/
structure Column where
  heading : String
  alignment : Alignment := .left

/-- A table of styled texts. -/
structure Table where
  title : String
  columns : List Column
  rows : List (List String)

/-- The characters of one kind of line: at the left, inside, between columns, and at the right. -/
structure Rule where
  left : Char
  inner : Char
  between : Char
  right : Char

namespace Table

/-- The line above the headings. -/
def topRule : Rule := ⟨'┏', '━', '┳', '┓'⟩

/-- The line below the headings. -/
def headRule : Rule := ⟨'┡', '━', '╇', '┩'⟩

/-- The line below the rows. -/
def bottomRule : Rule := ⟨'└', '─', '┴', '┘'⟩

/-- The sides of headings. -/
def headSides : Rule := ⟨'┃', ' ', '┃', '┃'⟩

/-- The sides of rows. -/
def rowSides : Rule := ⟨'│', ' ', '│', '│'⟩

private def joined (r : Rule) (parts : List (List Char)) : List Char :=
  r.left :: List.intercalate [r.between] parts ++ [r.right]

/-- A line over columns of some widths. -/
def ruleLine (r : Rule) (widths : List Nat) : List Char :=
  joined r (widths.map fun w => List.replicate w r.inner)

/-- The cells that a text needs: those of its widest line. -/
def neededWidth (text : List Char) : Nat :=
  (lines text).foldl (fun n line => Nat.max n (cellCount line)) 0

/-- The space left and right of the text in a cell. -/
def padding : Nat := 2

/-- The width of a column of texts, at most a given one. -/
def columnWidth (most : Nat) (texts : List (List Char)) : Nat :=
  texts.foldl (fun n t => Nat.max n (Nat.min most (neededWidth t + padding))) 0

private def nearestHalfEven (num den : Nat) : Nat :=
  let q := num / den
  let twice := 2 * (num % den)
  if den < twice || (twice == den && q % 2 == 1) then q + 1 else q

private def shareFrom : (total shares : Nat) → List (Nat × Nat) → List Nat
  | _, _, [] => []
  | total, shares, (most, width) :: rest =>
    if most == 0 || shares == 0 then width :: shareFrom total shares rest
    else
      let part := Nat.min most (nearestHalfEven total shares)
      (width - part) :: shareFrom (total - part) (shares - 1) rest

/-- Take cells away from columns in equal shares, at most so many from each. -/
def takeAway (total : Nat) (columns : List (Nat × Nat)) : List Nat :=
  shareFrom total (columns.countP (·.1 != 0)) columns

/-- The width of several columns together. -/
def total (widths : List Nat) : Nat := widths.foldl (· + ·) 0

/-- Narrow the widest columns to the width of the next one, until the columns fit. -/
def narrowed (most : Nat) : Nat → List Nat → List Nat
  | 0, widths => widths
  | steps + 1, widths =>
    let excess := total widths - most
    let widest := widths.foldl Nat.max 0
    let second := (widths.filter (· != widest)).foldl Nat.max 0
    if excess == 0 || widest == second then widths
    else narrowed most steps (takeAway excess (widths.map fun w =>
      (if w == widest then Nat.min excess (widest - second) else 0, w)))

/-- The widths of columns of texts that have to fit into some cells. -/
def columnWidths (most : Nat) (columns : List (List (List Char))) : List Nat :=
  let widths := columns.map fun texts => Nat.max 1 (columnWidth most texts)
  if total widths ≤ most then widths
  else
    let widths := narrowed most (total widths + 1) widths
    let widths := if total widths ≤ most then widths
      else takeAway (total widths - most) (widths.map fun w => (w, w))
    (widths.zip columns).map fun (w, texts) => columnWidth w texts

/-- The lines of a row. -/
def rowLines (sides : Rule) (cells : List (Nat × Alignment × List Char)) : List (List Char) :=
  let laid := cells.map fun (width, alignment, text) =>
    let inner := width - padding
    (inner, layOut { width := inner, overflow := .ellipsis, alignment } text)
  let height := laid.foldl (fun n c => Nat.max n c.2.length) 1
  (List.range height).map fun i =>
    joined sides (laid.map fun (inner, ls) =>
      ' ' :: (ls[i]?).getD (List.replicate inner ' ') ++ [' '])

/-- A table on a console of some width. -/
def render (t : Table) (width : Nat) : Except Breakdown (List Char) := do
  let title ← shown t.title
  let head ← t.columns.mapM (shown ·.heading)
  let rows ← t.rows.mapM (·.mapM shown)
  let columns := head.zipIdx.map fun (h, i) => h :: rows.map fun r => (r[i]?).getD []
  let edges := t.columns.length + 1
  let widths := columnWidths (width - edges) columns
  let cells (row : List (List Char)) : List (Nat × Alignment × List Char) :=
    widths.zip ((t.columns.map (·.alignment)).zip row)
  let body := rows.flatMap fun r => rowLines rowSides (cells r)
  let tableWidth := total widths + edges
  let all := layOut { width := tableWidth, alignment := .center } title ++
    [ruleLine topRule widths] ++ rowLines headSides (cells head) ++ [ruleLine headRule widths] ++
    body ++ [ruleLine bottomRule widths]
  return stacked all ++ ['\n']

end Table
end CodeAgent.Console
