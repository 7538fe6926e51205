import Snippets.Text.Blank
import Snippets.Text.Width

/-!
Tables for the terminal: a title, a header and rows, drawn with box characters. A column is as wide
as its widest cell, and the title is centred over the table.

Title and cells are what is shown: marks in brackets and names of emoji have been read before. The
terminal is taken to be as wide as the table, and no styles are written.
-/

namespace Snippets

/-- How the cells of a column are aligned. -/
inductive Alignment where
  | left
  | right
  deriving DecidableEq, Repr

structure Column where
  header : Text
  alignment : Alignment := .left
  deriving DecidableEq, Repr

structure Table where
  title : Text
  columns : List Column
  rows : List (List Text)
  deriving DecidableEq, Repr

namespace Table

def blanks (n : Nat) : Text := List.replicate n 0x20

/-- The cell without the controls that would move the cursor. -/
def clean (cell : Text) : Text :=
  cell.filter fun c => !([0x07, 0x08, 0x0b, 0x0c, 0x0d] : List CodePoint).contains c

/-- The lines of a cell. -/
def lines (cell : Text) : List Text := Text.splitOn 0x0a (clean cell)

def cellWidth (cell : Text) : Nat := ((lines cell).map Text.width).foldl max 0

/-- A line of a cell, filled up to a width. -/
def fill (a : Alignment) (width : Nat) (line : Text) : Text :=
  match a with
  | .left => line ++ blanks (width - line.width)
  | .right => blanks (width - line.width) ++ line

/-- A line in the middle of a width; of an odd number of blanks the right side gets one more. -/
def centre (width : Nat) (line : Text) : Text :=
  let left := (width - line.width) / 2
  blanks left ++ line ++ blanks (width - line.width - left)

/-! ## Titles -/

/-- The words of a text, each with the blanks around it. -/
def words (t : Text) : List Text :=
  let step (ws : List Text) (c : CodePoint) : List Text :=
    match ws with
    | [] => [[c]]
    | w :: rest =>
      let blankLast := (w.head?.map CodePoint.isBlank).getD true
      if !c.isBlank && blankLast && w.any (!·.isBlank) then [c] :: w :: rest else (c :: w) :: rest
  ((t.foldl step []).map List.reverse).reverse

/-- Pieces of a word, each at most `width` columns wide. -/
def chop (width : Nat) (word : Text) : List Text :=
  let step (ps : List Text) (c : CodePoint) : List Text :=
    match ps with
    | [] => [[c]]
    | p :: rest => if p.width + c.width ≤ width then (p ++ [c]) :: rest else [c] :: p :: rest
  (word.foldl step []).reverse

/-- Lines of at most `width` columns: a word that does not fit in the rest of a line begins a new
one, and a word that fits in no line is cut. -/
def wrap (width : Nat) (t : Text) : List Text :=
  let step (ls : List Text) (word : Text) : List Text :=
    match ls with
    | [] => (chop width word).reverse
    | l :: rest =>
      let needed := (Text.trimRight word).width
      if l.width + needed ≤ width then (l ++ word) :: rest
      else if width < needed then (chop width word).reverse ++ ls
      else word :: l :: rest
  (((words t).foldl step []).map Text.trimRight).reverse

/-! ## Drawing -/

def widths (t : Table) : List Nat :=
  t.columns.zipIdx.map fun (c, i) =>
    (t.rows.map fun row => cellWidth ((row[i]?).getD [])).foldl max (cellWidth c.header)

/-- A rule: a bar over each column, and what stands at the ends and between two columns. -/
def rule (widths : List Nat) (left bar between right : String) : Text :=
  text left ++ Text.join (text between) (widths.map fun w =>
    (List.replicate (w + 2) (text bar)).flatten) ++ text right ++ text "\n"

/-- How many lines a row takes. -/
def height (row : List Text) : Nat := (row.map fun cell => (lines cell).length).foldl max 1

/-- One of the lines of a row. -/
def rowLine (t : Table) (edge : String) (row : List Text) (n : Nat) : Text :=
  let parts := (t.columns.zip t.widths).zipIdx.map fun ((c, w), i) =>
    fill c.alignment w ((((row[i]?).map lines).getD [])[n]?.getD [])
  text edge ++ text " " ++ Text.join (text " " ++ text edge ++ text " ") parts ++ text " " ++
    text edge

def drawRow (t : Table) (edge : String) (row : List Text) : Text :=
  (List.range (height row)).flatMap fun n => t.rowLine edge row n ++ text "\n"

def totalWidth (t : Table) : Nat := total (t.widths.map (· + 3)) + 1

/-- The title over the table. -/
def heading (t : Table) : Text :=
  (wrap t.totalWidth t.title).flatMap fun l => centre t.totalWidth l ++ text "\n"

def render (t : Table) : Text :=
  t.heading ++
  rule t.widths "┏" "━" "┳" "┓" ++
  t.drawRow "┃" (t.columns.map Column.header) ++
  rule t.widths "┡" "━" "╇" "┩" ++
  t.rows.flatMap (t.drawRow "│") ++
  rule t.widths "└" "─" "┴" "┘"

end Table

end Snippets
