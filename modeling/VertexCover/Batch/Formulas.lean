import VertexCover.Batch.Report
import VertexCover.Batch.Table
import VertexCover.Instance.Basic

/-! Batches of formulas: every instance is decided for itself and fills one row of a table. -/
namespace VertexCover

/-- The answer for one formula. -/
structure FormulaSolution where
  formula : Formula
  verdict : Verdict
  ms : Double

/-- Decides every formula of a batch; an instance that was not read keeps its error. -/
def solveFormulas (seconds : Double) (instances : List (Instance String Formula)) :
    List (Instance String FormulaSolution) :=
  instances.map fun i =>
    { index := i.index
      content := i.content.map fun f => ⟨f, f.solve, seconds.mulNat 1000⟩ }

/-- What the decisions of a batch have to say. -/
def formulasLog (seconds : Double) (results : List (Instance String FormulaSolution)) :
    List Log.Entry :=
  results.flatMap fun i =>
    match i.content with
    | .error _ => []
    | .ok s => s.verdict.log seconds

/-- The formula holds under the values found, for a formula that can be satisfied. -/
def FormulaSolution.verified (s : FormulaSolution) : Cell :=
  match s.verdict.values with
  | none => .missing
  | some values =>
    match s.formula.evaluate (.ofVector values) with
    | .ok b => .truth b
    | .error _ => .missing

/-- The row of a formula. -/
def formulaRow (i : Instance String FormulaSolution) : Row :=
  match i.content with
  | .error message => [("formula", .int i.index), ("error", .text message)]
  | .ok s =>
    [("formula", .int i.index), ("n_variables", .int s.formula.varCount),
      ("n_clauses", .int s.formula.size), ("target", .int s.verdict.target),
      ("cover_size", .int s.verdict.cover.length), ("satisfiable", .truth s.verdict.satisfiable),
      ("assignment", (s.verdict.values.map Cell.flags).getD .missing),
      ("verified", s.verified), ("ms", .real s.ms), ("error", .missing)]

/-- The table of a batch of formulas. -/
def formulaTable (results : List (Instance String FormulaSolution)) : Table :=
  .ofRows (results.map formulaRow)

/-- The report on a formula; there is none for an instance that was not read. -/
def FormulaSolution.report (index : Int) (s : FormulaSolution) : Except Fault (List String) :=
  formulaLines index s.formula s.verdict (.real s.ms)

end VertexCover
