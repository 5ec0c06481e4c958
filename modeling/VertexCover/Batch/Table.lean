import VertexCover.Decimal.Shortest
import VertexCover.Formula.Entry

/-! Tables of results and their text with commas.

A row names the columns it fills. A column of integers in which some cell is missing is kept as
doubles, as long as its numbers fit. -/
namespace VertexCover

/-- The content of a cell. -/
inductive Cell where
  | missing
  | int (n : Int)
  | real (x : Double)
  | truth (b : Bool)
  | text (s : String)
  | labels (labels : List Label)
  | flags (flags : List Bool)
deriving DecidableEq, Repr

/-- The filled cells of a row, each with the name of its column. -/
abbrev Row := List (String × Cell)

/-- Columns, and the cells of every row in their order. -/
structure Table where
  columns : List String
  rows : List (List Cell)
deriving DecidableEq, Repr

namespace Cell

/-- The cell is an integer that a column of doubles can hold. -/
def fits : Cell → Bool
  | .int n => -(Nat.pow 2 63 : Int) ≤ n && n < (Nat.pow 2 64 : Int)
  | .missing => true
  | _ => false

/-- An integer as a double. -/
def widen : Cell → Cell
  | .int n => .real (.ofInt n)
  | cell => cell

/-- The text of a cell, before quoting. -/
def plain : Cell → String
  | .missing => ""
  | .int n => Text.ofInteger n
  | .real x => x.write
  | .truth b => truthText b
  | .text s => s
  | .labels ls => listText (ls.map Label.display)
  | .flags bs => listText (bs.map truthText)

/-- Characters that force a cell into quotes: the comma, the quote itself and the end of a line. -/
def needsQuotes (c : Char) : Bool := c == ',' || c == '\x22' || c == '\n'

/-- The text of a cell in a file with commas. -/
def csv (cell : Cell) : String :=
  let shown := cell.plain
  if shown.toList.any needsQuotes then
    let doubled := shown.toList.flatMap fun c => if c = '\x22' then ['\x22', '\x22'] else [c]
    String.ofList ('\x22' :: doubled ++ ['\x22'])
  else shown

end Cell

namespace Table

/-- A column holds integers only, and some cell of it is missing. -/
def isWide (cells : List Cell) : Bool := cells.contains .missing && cells.all Cell.fits

/-- The table of the rows; columns stand in the order in which they first appear. -/
def ofRows (rows : List Row) : Table :=
  let columns := (rows.flatMap fun row => row.map Prod.fst).eraseDups
  let cell (name : String) (row : Row) := (row.lookup name).getD .missing
  let wide := columns.filter fun name => isWide (rows.map (cell name))
  { columns
    rows := rows.map fun row => columns.map fun name =>
      if wide.contains name then (cell name row).widen else cell name row }

/-- A line of cells divided by commas. -/
def line (cells : List String) : String := String.intercalate "," cells ++ "\n"

/-- The table as a text with commas, the columns in its first line. -/
def csv (t : Table) : String :=
  line t.columns ++ String.join (t.rows.map fun row => line (row.map Cell.csv))

end Table

end VertexCover
