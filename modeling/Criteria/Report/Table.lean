import Criteria.Text.Wrap

/-!
# Criteria.Report.Table

Tables in frames: a heavy frame around the titles and a light one around the rows, every column as
wide as its widest cell, with a blank on both sides. A cell of several lines makes its row as high
as that. Cells are measured before their tabs are filled, so that a cell may need more room than it
gets; it is then broken between words, or cut.
-/

namespace Criteria

structure Column where
  title : String
  alignRight : Bool := false

namespace Table

/-- Characters that end a line when a cell is measured. -/
def isLineBreak (c : Char) : Bool :=
  let n := c.toNat
  n == 10 || (28 ≤ n && n ≤ 30) || n == 0x85 || n == 0x2028 || n == 0x2029

/-- The columns of the widest line. -/
def cellWidth (cell : String) : Nat :=
  ((Text.visible cell).splitOnP isLineBreak).foldl (fun w l => max w (Text.width l)) 0

/-- The width of each column. -/
def widths (columns : List Column) (rows : List (List String)) : List Nat :=
  columns.zipIdx.map fun (c, i) =>
    rows.foldl (fun w row => max w (cellWidth (row.getD i ""))) (cellWidth c.title)

/-- A line of the frame. -/
def rule (left bar cross right : String) (widths : List Nat) : String :=
  left ++ cross.intercalate (widths.map fun w => String.join (List.replicate (w + 2) bar)) ++ right

/-- The lines of a row between bars. -/
def rowLines (bar : String) (columns : List Column) (widths : List Nat) (row : List String) :
    List String :=
  let cells := ((columns.zip widths).zip row).map fun ((c, w), cell) =>
    (w, Text.fittedLines c.alignRight w cell)
  let height := cells.foldl (fun h c => max h c.2.length) 1
  (List.range height).map fun i =>
    let parts := cells.map fun (w, lines) =>
      " " ++ String.ofList (lines.getD i (List.replicate w ' ')) ++ " "
    bar ++ bar.intercalate parts ++ bar

def draw (columns : List Column) (rows : List (List String)) : String :=
  let ws := widths columns rows
  let ls := [rule "┏" "━" "┳" "┓" ws] ++ rowLines "┃" columns ws (columns.map Column.title) ++
    [rule "┡" "━" "╇" "┩" ws] ++ rows.flatMap (rowLines "│" columns ws) ++
    [rule "└" "─" "┴" "┘" ws]
  String.join (ls.map fun l => l ++ "\n")

end Table
end Criteria
