import Mathlib.Data.List.Basic
import Mathlib.Data.List.Forall2
import Snippets.Cli.Table
import Snippets.Proofs.Text.Pieces

/-!
# How tables are drawn

`Drawn` says what the drawing of a table is, line by line and without a word on how it is made.
Between the rules stand the lines of the header and then, in order and for each row, the lines of
the row. They are as many as the tallest cell has, and each of them shows, from left to right and
between edges, a line of every cell, filled up with blanks to the width of its column.

A table draws all its rows, and nothing else under its title (`drawn_render`).
-/

namespace Snippets.Table

/-- The lines of a cell: joined by line breaks they are the cell, but for the controls that would
move the cursor. -/
structure Lines (cell : Text) (ls : List Text) : Prop where
  joined : Text.join (text "\n") ls =
    cell.filter fun c => !([0x07, 0x08, 0x0b, 0x0c, 0x0d] : List CodePoint).contains c
  unbroken : ∀ l ∈ ls, (0x0a : CodePoint) ∉ l
  nonempty : ls ≠ []

/-- A line fills the width of a column, with blanks on the side to which it is not aligned. -/
def Fills (c : Column) (width : Nat) (line piece : Text) : Prop :=
  piece.width = width ∧ ∃ n, piece =
    match c.alignment with
    | .left => line ++ blanks n
    | .right => blanks n ++ line

/-- Cells are shown by these lines, between edges and under columns of these widths. -/
def Block (columns : List Column) (widths : List Nat) (edge : String) (cells : List Text)
    (block : List Text) : Prop :=
  ∃ pieces : List (List Text), List.Forall₂ Lines cells pieces ∧
    (∀ ls ∈ pieces, ls.length ≤ block.length) ∧ (∃ ls ∈ pieces, ls.length = block.length) ∧
    ∀ (n : Nat) (line : Text), block[n]? = some line → ∃ parts : List Text,
      parts.length = columns.length ∧
      line = text edge ++ text " " ++ Text.join (text " " ++ text edge ++ text " ") parts ++
        text " " ++ text edge ∧
      ∀ (j : Nat) (c : Column) (w : Nat) (ls : List Text) (part : Text), columns[j]? = some c →
        widths[j]? = some w → pieces[j]? = some ls → parts[j]? = some part →
          Fills c w ((ls[n]?).getD []) part

/-- Lines, each with its end. -/
def unlines (ls : List Text) : Text := ls.flatMap (· ++ text "\n")

/-- A line that shows nothing but box characters. -/
def Ruled (t : Text) : Prop :=
  ∃ line, t = line ++ text "\n" ∧ ∀ c ∈ line, 0x2500 ≤ c.val ∧ c.val ≤ 0x257f

/-- The drawing of a header and rows. -/
def Drawn (columns : List Column) (rows : List (List Text)) (drawing : Text) : Prop :=
  ∃ (widths : List Nat) (head : List Text) (blocks : List (List Text)) (top middle bottom : Text),
    widths.length = columns.length ∧
    Block columns widths "┃" (columns.map Column.header) head ∧
    List.Forall₂ (Block columns widths "│") rows blocks ∧
    Ruled top ∧ Ruled middle ∧ Ruled bottom ∧
    drawing = top ++ unlines head ++ middle ++ blocks.flatMap unlines ++ bottom

/-! ## Cells -/

section Cells

variable {cell line : Text} {l : List Nat} {a m n : Nat}

theorem le_foldl_max_iff : n ≤ l.foldl max a ↔ n ≤ a ∨ ∃ m ∈ l, n ≤ m := by
  induction l generalizing a with
  | nil => simp
  | cons b l ih =>
    have hmax : n ≤ max a b ↔ n ≤ a ∨ n ≤ b := by omega
    rw [List.foldl_cons, ih, hmax, List.exists_mem_cons_iff (n ≤ ·), or_assoc]

theorem le_foldl_max (h : m ∈ l) : m ≤ l.foldl max a :=
  le_foldl_max_iff.2 (.inr ⟨m, h, Nat.le_refl m⟩)

theorem lines_lines (cell : Text) : Lines cell (lines cell) where
  joined := Text.join_splitOn 0x0a (clean cell)
  unbroken _ h := Text.not_mem_of_mem_splitOn h
  nonempty := Text.splitOn_ne_nil 0x0a (clean cell)

theorem width_le_cellWidth (h : line ∈ lines cell) : line.width ≤ cellWidth cell :=
  le_foldl_max (List.mem_map_of_mem h)

theorem width_append (t u : Text) : (t ++ u).width = t.width + u.width := by
  unfold Text.width
  rw [List.map_append, total_append]

theorem width_blanks (n : Nat) : (blanks n).width = n := by
  induction n with
  | zero => rfl
  | succ n ih =>
    have hblank : CodePoint.width 0x20 = 1 := by decide
    rw [blanks, List.replicate_succ, Text.width, List.map_cons, total_cons, hblank, Nat.add_comm]
    exact congrArg (· + 1) ih

theorem fills_fill {c : Column} {w : Nat} (h : line.width ≤ w) :
    Fills c w line (fill c.alignment w line) := by
  unfold Fills fill
  cases c.alignment with
  | left =>
    refine ⟨?_, w - line.width, rfl⟩
    rw [width_append, width_blanks, Nat.add_sub_cancel' h]
  | right =>
    refine ⟨?_, w - line.width, rfl⟩
    rw [width_append, width_blanks, Nat.sub_add_cancel h]

end Cells

/-! ## Rules -/

/-- A rule is ruled if its marks are box characters. -/
theorem ruled_rule {widths : List Nat} {left bar between right : String}
    (h : ∀ s ∈ [left, bar, between, right], ∀ c ∈ text s, 0x2500 ≤ c.val ∧ c.val ≤ 0x257f) :
    Ruled (rule widths left bar between right) := by
  simp only [List.forall_mem_cons] at h
  obtain ⟨hleft, hbar, hbetween, hright, -⟩ := h
  have hbars : ∀ piece ∈ widths.map fun w => (List.replicate (w + 2) (text bar)).flatten,
      ∀ c ∈ piece, 0x2500 ≤ c.val ∧ c.val ≤ 0x257f := by
    intro piece hpiece c hc
    obtain ⟨w, -, rfl⟩ := List.mem_map.1 hpiece
    obtain ⟨u, hu, hc⟩ := List.mem_flatten.1 hc
    rw [List.eq_of_mem_replicate hu] at hc
    exact hbar c hc
  refine ⟨_, rfl, fun c hc => ?_⟩
  rcases List.mem_append.1 hc with hc | hc
  · rcases List.mem_append.1 hc with hc | hc
    · exact hleft c hc
    · rcases Text.mem_join hc with hc | ⟨piece, hpiece, hc⟩
      · exact hbetween c hc
      · exact hbars piece hpiece c hc
  · exact hright c hc

/-! ## Rows -/

section Rows

variable {t : Table} {row : List Text} {c : Column} {cell : Text} {w j : Nat}

theorem length_widths (t : Table) : t.widths.length = t.columns.length := by
  rw [widths, List.length_map, List.length_zipIdx]

theorem getElem?_widths (hc : t.columns[j]? = some c) : t.widths[j]? =
    some ((t.rows.map fun row => cellWidth ((row[j]?).getD [])).foldl max (cellWidth c.header)) := by
  simp [widths, List.getElem?_map, List.getElem?_zipIdx, hc]

/-- A column is as wide as its header. -/
theorem cellWidth_header_le (hc : t.columns[j]? = some c) (hw : t.widths[j]? = some w) :
    cellWidth c.header ≤ w := by
  rw [getElem?_widths hc, Option.some_inj] at hw
  exact hw ▸ le_foldl_max_iff.2 (.inl (Nat.le_refl _))

/-- A column is as wide as each of its cells. -/
theorem cellWidth_le (hc : t.columns[j]? = some c) (hw : t.widths[j]? = some w)
    (hrow : row ∈ t.rows) (hcell : row[j]? = some cell) : cellWidth cell ≤ w := by
  rw [getElem?_widths hc, Option.some_inj] at hw
  refine hw ▸ le_foldl_max (List.mem_map.2 ⟨row, hrow, ?_⟩)
  rw [hcell]
  rfl

theorem length_lines_le_height (h : cell ∈ row) : (lines cell).length ≤ height row :=
  le_foldl_max (List.mem_map_of_mem h)

theorem exists_length_lines_eq_height (h : row ≠ []) :
    ∃ cell ∈ row, (lines cell).length = height row := by
  have hheight : height row ≤ 1 ∨
      ∃ n ∈ row.map fun cell => (lines cell).length, height row ≤ n :=
    le_foldl_max_iff.1 (Nat.le_refl _)
  have hmem : ∃ cell ∈ row, height row ≤ (lines cell).length := by
    rcases hheight with hone | ⟨n, hn, hle⟩
    · obtain ⟨cell, rest, rfl⟩ := List.exists_cons_of_ne_nil h
      have hpos := List.length_pos_of_ne_nil (lines_lines cell).nonempty
      exact ⟨cell, List.mem_cons_self, Nat.le_trans hone hpos⟩
    · obtain ⟨cell, hcell, rfl⟩ := List.mem_map.1 hn
      exact ⟨cell, hcell, hle⟩
  obtain ⟨cell, hcell, hle⟩ := hmem
  exact ⟨cell, hcell, Nat.le_antisymm (length_lines_le_height hcell) hle⟩

/-- The lines of a row. -/
def rowLines (t : Table) (edge : String) (row : List Text) : List Text :=
  (List.range (height row)).map (t.rowLine edge row)

theorem drawRow_eq (t : Table) (edge : String) (row : List Text) :
    t.drawRow edge row = unlines (t.rowLines edge row) := by
  rw [drawRow, unlines, rowLines, List.flatMap_map]

theorem block_rowLines (edge : String) (hrow : row ≠ [])
    (hfit : ∀ (j : Nat) (c : Column) (w : Nat) (cell : Text), t.columns[j]? = some c →
      t.widths[j]? = some w → row[j]? = some cell → cellWidth cell ≤ w) :
    Block t.columns t.widths edge row (t.rowLines edge row) := by
  have hlength : (t.rowLines edge row).length = height row := by
    rw [rowLines, List.length_map, List.length_range]
  refine ⟨row.map lines, ?_, fun ls hls => ?_, ?_, fun n line hline => ?_⟩
  · rw [List.forall₂_map_right_iff, List.forall₂_same]
    exact fun cell _ => lines_lines cell
  · obtain ⟨cell, hcell, rfl⟩ := List.mem_map.1 hls
    exact hlength ▸ length_lines_le_height hcell
  · obtain ⟨cell, hcell, hheight⟩ := exists_length_lines_eq_height hrow
    exact ⟨lines cell, List.mem_map_of_mem hcell, hheight.trans hlength.symm⟩
  · have hline : line = t.rowLine edge row n := by
      rw [rowLines, List.getElem?_map] at hline
      obtain ⟨m, hm, rfl⟩ := Option.map_eq_some_iff.1 hline
      rw [(List.getElem?_eq_some_iff.1 hm).2.symm, List.getElem_range]
    subst hline
    refine ⟨_, ?_, rfl, ?_⟩
    · rw [List.length_map, List.length_zipIdx, List.length_zip, length_widths, Nat.min_self]
    · intro j c w ls part hc hw hls hpart
      rw [List.getElem?_map] at hls
      obtain ⟨cell, hcell, rfl⟩ := Option.map_eq_some_iff.1 hls
      have hzip : (t.columns.zip t.widths)[j]? = some (c, w) :=
        List.getElem?_zip_eq_some.2 ⟨hc, hw⟩
      simp only [List.getElem?_map, List.getElem?_zipIdx, hzip, Option.map_some, Option.some_inj,
        hcell, Option.getD_some, Nat.zero_add] at hpart
      subst hpart
      refine fills_fill ?_
      rcases hn : (lines cell)[n]? with _ | l
      · exact Nat.zero_le _
      · exact Nat.le_trans (width_le_cellWidth (List.mem_of_getElem? hn)) (hfit j c w cell hc hw hcell)

end Rows

/-- Under its title a table with cells for every column draws its header and its rows. -/
theorem drawn_render {t : Table} (hcolumns : t.columns ≠ [])
    (hrows : ∀ row ∈ t.rows, row.length = t.columns.length) :
    ∃ drawing, Drawn t.columns t.rows drawing ∧ t.render = t.heading ++ drawing := by
  have htop : Ruled (rule t.widths "┏" "━" "┳" "┓") := ruled_rule (by decide +kernel)
  have hmiddle : Ruled (rule t.widths "┡" "━" "╇" "┩") := ruled_rule (by decide +kernel)
  have hbottom : Ruled (rule t.widths "└" "─" "┴" "┘") := ruled_rule (by decide +kernel)
  refine ⟨_, ⟨t.widths, t.rowLines "┃" (t.columns.map Column.header),
    t.rows.map (t.rowLines "│"), _, _, _, length_widths t, ?_, ?_, htop, hmiddle, hbottom, rfl⟩, ?_⟩
  · refine block_rowLines _ (by simpa using hcolumns) fun j c w cell hc hw hcell => ?_
    rw [List.getElem?_map, hc] at hcell
    obtain rfl := Option.some_inj.1 hcell
    exact cellWidth_header_le hc hw
  · rw [List.forall₂_map_right_iff, List.forall₂_same]
    intro row hrow
    refine block_rowLines _ ?_ fun j c w cell hc hw hcell => cellWidth_le hc hw hrow hcell
    rintro rfl
    exact hcolumns (List.length_eq_zero_iff.1 (hrows [] hrow).symm)
  · have hblocks : t.rows.flatMap (t.drawRow "│") =
        (t.rows.map (t.rowLines "│")).flatMap unlines := by
      rw [List.flatMap_map]
      exact congrArg (List.flatMap · t.rows) (funext (drawRow_eq t "│"))
    rw [render, drawRow_eq, hblocks]
    simp only [List.append_assoc]

end Snippets.Table
