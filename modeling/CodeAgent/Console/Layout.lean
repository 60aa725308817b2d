import CodeAgent.Text.Blank
import CodeAgent.Text.CellWidth
import CodeAgent.Text.Line

/-! Lines of a console: tabs, breaks between words, and alignment. -/
namespace CodeAgent.Console
open CodeAgent.Text

/-- What becomes of a word that is wider than the line. -/
inductive Overflow where
  | fold
  | ellipsis
  deriving DecidableEq, Repr

/-- Where a line stands in its space; one that stands free is not filled up. -/
inductive Alignment where
  | free
  | left
  | center
  | right
  deriving DecidableEq, Repr

/-- How a text is laid out. -/
structure Layout where
  width : Nat
  overflow : Overflow := .fold
  alignment : Alignment := .free

/-- The distance of tab stops. -/
def tabWidth : Nat := 8

private def tabsFrom (column : Nat) : List Char → List Char
  | [] => []
  | '\t' :: cs =>
    let stop := (column / tabWidth + 1) * tabWidth
    List.replicate (stop - column) ' ' ++ tabsFrom stop cs
  | c :: cs => c :: tabsFrom (column + cellWidth c) cs

/-- A line with spaces up to the next stop in the place of each tab. -/
def withoutTabs (line : List Char) : List Char := tabsFrom 0 line

private def chunksFrom : (chunk : List Char) → (inSpace : Bool) → List Char → List (List Char)
  | chunk, _, [] => if chunk.isEmpty then [] else [chunk.reverse]
  | chunk, inSpace, c :: cs =>
    if inSpace && !isBlank c then chunk.reverse :: chunksFrom [c] false cs
    else chunksFrom (c :: chunk) (isBlank c && (inSpace || chunk.any (!isBlank ·))) cs

/-- The words of a line, each with the space after it, and the first with the space before it too. -/
def spacedWords (line : List Char) : List (List Char) :=
  (chunksFrom [] false line).filter (·.any (!isBlank ·))

/-- Lines under way: those that are complete, the one being filled, and the cells it takes. -/
structure Filling where
  complete : List (List Char) := []
  line : List Char := []
  used : Nat := 0

namespace Filling

/-- Start a new line, unless nothing was filled in yet. -/
def breakLine (f : Filling) : Filling :=
  if f.complete.isEmpty && f.line.isEmpty then f
  else { complete := f.complete ++ [f.line], line := [], used := f.used }

/-- Add to the line without measuring. -/
def add (f : Filling) (cs : List Char) (used : Nat) : Filling :=
  { f with line := f.line ++ cs, used }

/-- Fill in a word. A word that does not fit goes on a new line if it fits there; one that fits
nowhere is folded over lines, or left to be cut. -/
def word (layout : Layout) (f : Filling) (w : List Char) : Filling :=
  let size := cellCount (trimEndBy isBlank w)
  if f.used + size ≤ layout.width then f.add w (f.used + cellCount w)
  else if layout.width < size then
    match layout.overflow with
    | .fold => (chopCells layout.width w).foldl (fun f part => f.breakLine.add part (cellCount part)) f
    | .ellipsis => f.breakLine.add w (cellCount w)
  else if f.used = 0 then f.add w 0
  else f.breakLine.add w (cellCount w)

end Filling

/-- Break a line between words. -/
def brokenLines (layout : Layout) (line : List Char) : List (List Char) :=
  match spacedWords line with
  | [] => [line]
  | ws =>
    let f := ws.foldl (Filling.word layout) {}
    f.complete ++ [f.line]

/-- Drop white space at the end of a line as far as it goes over the width. -/
def trimExcess (width : Nat) (line : List Char) : List Char :=
  let excess := line.length - width
  let blanks := (line.reverse.takeWhile isBlank).length
  line.take (line.length - Nat.min excess blanks)

/-- Cut a line that is too wide. -/
def cut (layout : Layout) (line : List Char) : List Char :=
  if cellCount line ≤ layout.width then line
  else match layout.overflow with
    | .fold => setCells layout.width line
    | .ellipsis => setCells (layout.width - 1) line ++ ['…']

/-- Spaces that make up for the cells that a line lacks. -/
def filling (width : Nat) (line : List Char) : List Char :=
  List.replicate (width - cellCount line) ' '

/-- A line in its place. -/
def aligned (layout : Layout) (line : List Char) : List Char :=
  match layout.alignment with
  | .free => cut layout line
  | .left =>
    let line := cut layout line
    line ++ filling layout.width line
  | .center =>
    let line := cut layout (trimEndBy isBlank line)
    let line := List.replicate ((layout.width - cellCount line) / 2) ' ' ++ line
    line ++ filling layout.width line
  | .right =>
    let line := cut layout (trimEndBy isBlank line)
    filling layout.width line ++ line

/-- The lines of a text as laid out. -/
def layOut (layout : Layout) (text : List Char) : List (List Char) :=
  (splitAtEach '\n' text).flatMap fun line =>
    (brokenLines layout (withoutTabs line)).map (aligned layout ∘ trimExcess layout.width)

/-- Lines under each other. -/
def stacked (lines : List (List Char)) : List Char := List.intercalate ['\n'] lines

/-- A text whose lines are not broken. -/
def unbroken (text : List Char) : List Char :=
  stacked ((splitAtEach '\n' text).map withoutTabs)

end CodeAgent.Console
