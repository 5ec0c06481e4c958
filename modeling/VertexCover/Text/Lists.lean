import VertexCover.Decimal.Reading
import VertexCover.Fault

/-! Lists written with commas, as they are given on the command line. -/
namespace VertexCover.Text

/-- The items between the commas that are not blank. -/
def items (text : String) : List (List Char) :=
  (pieces ',' text.toList).filter fun item => !item.all isBlank

/-- A list of integers. -/
def readIntegers (text : String) : Except Fault (List Int) :=
  match (items text).mapM integer? with
  | some values => .ok values
  | none => .error (.listText text)

/-- A list of doubles. -/
def readDoubles (text : String) : Except Fault (List Double) :=
  match (items text).mapM Double.read with
  | some values => .ok values
  | none => .error (.listText text)

/-- A list of shapes, each with its integers divided by the letter x. -/
def readShapes (text : String) : Except Fault (List (List Int)) :=
  match (items text).mapM fun item => (pieces 'x' item).mapM integer? with
  | some values => .ok values
  | none => .error (.shapeListText text)

end VertexCover.Text
