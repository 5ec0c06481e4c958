import VertexCover.Fault

/-! Rows of an adjacency matrix as text.

A row is a line of zeros and ones, written together or divided by blanks. -/
namespace VertexCover

/-- The tokens of a row without blanks at its ends: its words if it has a blank, else its
characters. -/
def rowTokens (row : List Char) : List (List Char) :=
  if row.any Text.isBlank then Text.words row else row.map ([·])

/-- The entry a token stands for. -/
def readEntry (token : List Char) : Except Malformed Bool :=
  if token = ['0'] then .ok false
  else if token = ['1'] then .ok true
  else .error (.rowEntry (String.ofList token))

/-- The entries of a row that must have `n` of them. -/
def readRow (line : String) (n : Int) : Except Malformed (List Bool) :=
  let row := Text.strip line.toList
  let tokens := rowTokens row
  if (tokens.length : Int) = n then tokens.mapM readEntry
  else .error (.rowLength n tokens.length (String.ofList row))

/-- The text of a row, its entries divided by blanks. -/
def rowText (row : List Bool) : String :=
  String.intercalate " " (row.map fun entry => if entry then "1" else "0")

end VertexCover
