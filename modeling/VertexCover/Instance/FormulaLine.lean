import VertexCover.Formula.Basic
import VertexCover.Instance.Basic

/-! Formulas as lines of signed integers. -/
namespace VertexCover

/-- The formula on a line: integers divided by blanks. -/
def readFormula (line : String) : Except Malformed Formula :=
  match (Text.words line.toList).mapM Text.integer? with
  | none => .error (.formulaLine (String.ofList (Text.strip line.toList)))
  | some values => Formula.ofInts values

/-- The wording of a bad formula line with the given number. -/
def formulaMessage (index : Int) (cause : Malformed) : String :=
  s!"Formula {Text.ofInteger index}: {cause.message}"

/-- The numbered formulas of a file; blank lines hold none. -/
def readFormulas (lines : List String) : List (Instance String Formula) :=
  let filled := lines.filter fun line => !Text.isBlankLine line
  (Instance.number (filled.map readFormula)).map (Instance.describe formulaMessage)

/-- The line of a formula. -/
def Formula.line (f : Formula) : String := String.intercalate " " (f.toInts.map Text.ofInteger)

/-- The file with the lines of the formulas. -/
def formulaFile (formulas : List Formula) : String :=
  String.join (formulas.map fun f => f.line ++ "\n")

end VertexCover
