import VertexCover.Decimal.Number
import VertexCover.Formula.Render
import VertexCover.Gadget

/-! Lines of the printed reports. -/
namespace VertexCover

/-- The number without its fraction. -/
def Number.truncate : Number → Except Fault Int
  | .whole n => .ok n
  | .real (.infinite _) => .error .infiniteNumber
  | .real .nan => .error .undefinedNumber
  | .real (.finite negative mantissa exponent) => .ok (Double.truncate negative mantissa exponent)

/-- A set of labels in their order between braces. -/
def setText (members : List Label) : Except Fault String :=
  match Label.sort? members with
  | none => .error .mixedLabels
  | some sorted =>
    .ok ("\x7b" ++ String.intercalate ", " (sorted.map Label.bare) ++ "\x7d")

/-- The line on a graph with so many nodes and edges. -/
def graphLine (index : Int) (order edgeCount : Nat) (members : List Label) (ms : Number) :
    Except Fault String := do
  let ms := Text.ofInteger (← ms.truncate)
  let set ← setText members
  let place := s!"G{Text.ofInteger index}({Text.ofNatural order}, {Text.ofNatural edgeCount})"
  return s!"{place} (size={Text.ofNatural members.length}, ms={ms}) {set}"

/-- The value of a variable as a letter. -/
def valueLetter (value : Bool) : String := if value then "T" else "F"

/-- The lines on a formula: the verdict, the formula and the formula under the assignment. -/
def formulaLines (index : Int) (f : Formula) (v : Verdict) (ms : Number) :
    Except Fault (List String) := do
  let ms := Text.ofInteger (← ms.truncate)
  let shape := s!"[n={Text.ofNatural f.varCount} k={Text.ofNatural f.size}]"
  let header := s!"3CNF No. {Text.ofInteger index}: {shape} ({ms} ms)"
  match v.values with
  | none => return [s!"{header} No Solution", s!"{f.render} ==>", "unsatisfiable"]
  | some values =>
    let items := (numbered values).map fun (n, value) =>
      s!"{Text.ofNatural n}:{valueLetter value}"
    let solution := String.intercalate " " items
    let rendered ← f.renderUnder (.ofVector values)
    return [s!"{header} Solution:[{solution}]", s!"{f.render} ==>", rendered]

end VertexCover
