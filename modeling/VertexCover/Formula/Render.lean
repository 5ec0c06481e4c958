import VertexCover.Formula.Basic

/-! Texts of formulas.

Clauses stand in parentheses with their literals between bars, and a caret joins them. A literal is
shown as its integer or, under an assignment, as its truth value, both in two columns. -/
namespace VertexCover.Formula

/-- A clause with its literals shown as given. -/
def clauseText (shown : List String) : String := "(" ++ String.intercalate "|" shown ++ ")"

/-- The integer of a literal in at least two columns. -/
def literalText (l : Literal) : String :=
  String.ofList (Text.padLeft 2 ' ' (Text.writeInteger l.toInt))

/-- The formula with its literals as integers. -/
def render (f : Formula) : String :=
  String.intercalate "^" (f.clauses.map fun c => clauseText (c.literals.map literalText))

/-- The truth value of a literal in two columns. -/
def valueText (a : Assignment) (l : Literal) : Except Fault String := do
  return if ← l.isTrue a then " T" else " F"

/-- The formula with its literals as truth values; every variable that occurs must have one. -/
def renderUnder (f : Formula) (a : Assignment) : Except Fault String := do
  let clauses ← f.clauses.mapM fun c => c.literals.mapM (valueText a)
  return String.intercalate "^" (clauses.map clauseText)

/-- The formula as a constructor applied to its integers. -/
def display (f : Formula) : String :=
  "CnfFormula(" ++ listText (f.toInts.map Text.ofInteger) ++ ")"

end VertexCover.Formula
