import VertexCover.Batch.Report
import VertexCover.Batch.Table
import VertexCover.Check
import VertexCover.Clique
import VertexCover.Instance.Basic
import VertexCover.LinearModel

/-! Batches of graphs: every instance is solved for itself and fills one row of a table. -/
namespace VertexCover

/-- What is asked of every graph of a batch. -/
structure GraphTask where
  mode : Mode
  /-- The bound on the size, if there is one. -/
  k : Option Int
  repair : Bool
  /-- Whether the size is compared with the linear program. -/
  check : Bool
  /-- The duration that the clock reports for every step. -/
  seconds : Double

/-- The answer for one graph. -/
structure GraphSolution where
  order : Nat
  edgeCount : Nat
  /-- The members in their order. -/
  members : List Label
  ms : Double
  /-- The members pass the check of the mode. -/
  valid : Bool
  /-- The bound that was asked for. -/
  k : Option Int
  /-- The members meet the bound. -/
  targetMet : Bool
  /-- The best size by the linear program, if it was asked for. -/
  baselineSize : Option Int
deriving DecidableEq, Repr

namespace GraphTask

/-- A set of this size meets the bound. -/
def meets (task : GraphTask) (size : Nat) : Bool :=
  match task.mode, task.k with
  | _, none => true
  | .cover, some k => (size : Int) ≤ k
  | .clique, some k => k ≤ (size : Int)

/-- The labels are what the mode asks for, whatever their number. -/
def accepts (task : GraphTask) (g : Graph) (members : List Label) : Bool :=
  match task.mode with
  | .cover => g.isCover members
  | .clique => g.isClique members

/-- The best size by the linear program; for cliques it is run on the complement. -/
def baselineSize (task : GraphTask) (solver : Solver) (g : Graph) : Int :=
  match task.mode with
  | .cover => (g.baseline solver).members.length
  | .clique => (g.order : Int) - (g.complement.baseline solver).members.length

/-- The answer for one graph, with its log. -/
def solve (task : GraphTask) (solver : Solver) (g : Graph) : Logged GraphSolution :=
  let found := g.solve task.mode task.k task.repair task.seconds
  match found.result with
  | .error fault => ⟨.error fault, found.log⟩
  | .ok members =>
    match Label.sort? members with
    | none => ⟨.error .mixedLabels, found.log⟩
    | some sorted =>
      let solution : GraphSolution :=
        { order := g.order
          edgeCount := g.edgeCount
          members := sorted
          ms := task.seconds.mulNat 1000
          valid := task.accepts g members
          k := task.k
          targetMet := task.meets members.length
          baselineSize := if task.check then some (task.baselineSize solver g) else none }
      ⟨.ok solution, found.log⟩

/-- The answers for all instances in their order; an instance that was not read keeps its error, and
the first graph that cannot be answered ends the batch. -/
def solveAll (task : GraphTask) (solver : Solver) :
    List (Instance String Graph) → Logged (List (Instance String GraphSolution))
  | [] => ⟨.ok [], []⟩
  | i :: rest =>
    match i.content with
    | .error message =>
      let tail := task.solveAll solver rest
      ⟨tail.result.map (⟨i.index, .error message⟩ :: ·), tail.log⟩
    | .ok g =>
      let here := task.solve solver g
      match here.result with
      | .error fault => ⟨.error fault, here.log⟩
      | .ok solution =>
        let tail := task.solveAll solver rest
        ⟨tail.result.map (⟨i.index, .ok solution⟩ :: ·), here.log ++ tail.log⟩

end GraphTask

/-- The row of a graph. -/
def graphRow (i : Instance String GraphSolution) : Row :=
  match i.content with
  | .error message => [("graph", .int i.index), ("error", .text message)]
  | .ok s =>
    [("graph", .int i.index), ("n_vertices", .int s.order), ("n_edges", .int s.edgeCount),
      ("size", .int s.members.length), ("ms", .real s.ms), ("vertices", .labels s.members),
      ("valid", .truth s.valid), ("error", .missing)] ++
    (match s.k with
      | none => []
      | some k => [("k", .int k), ("target_met", .truth s.targetMet)]) ++
    (match s.baselineSize with
      | none => []
      | some size => [("ilp_size", .int size)])

/-- The table of a batch of graphs. -/
def graphTable (results : List (Instance String GraphSolution)) : Table :=
  .ofRows (results.map graphRow)

/-- The report line of a graph. -/
def solutionLine (i : Instance String GraphSolution) : Except Fault String :=
  match i.content with
  | .error message => .ok s!"G{Text.ofInteger i.index} skipped: {message}"
  | .ok s => do
    let line ← graphLine i.index s.order s.edgeCount s.members (.real s.ms)
    return if s.targetMet then line else line ++ " (target not met)"

end VertexCover
