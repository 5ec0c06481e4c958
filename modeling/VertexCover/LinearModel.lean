import VertexCover.Graph.Basic
import VertexCover.HittingSet

/-! The vertex cover problem as a 0/1 linear program.

There is a variable for every node and, for every edge, the constraint that the variables of its ends
add up to at least one; the sum of all variables is to be as small as possible. The program is handed
to a solver, of which nothing but its answer is known; `Model.minimise` is one that is always
optimal. -/
namespace VertexCover

/-- Covering constraints over numbered 0/1 variables. -/
structure Model where
  /-- The number of variables. -/
  size : Nat
  /-- Each constraint lists variables of which at least one must be set. -/
  constraints : List (List Nat)
deriving DecidableEq, Repr

/-- Values for the variables and whether the solver takes them for optimal. -/
structure Solution where
  values : List Bool
  optimal : Bool
deriving DecidableEq, Repr

/-- A solver for covering programs. -/
abbrev Solver := Model → Solution

namespace Model

/-- The values meet every constraint. -/
def feasible (m : Model) (values : List Bool) : Bool :=
  values.length == m.size && m.constraints.all fun c => c.any fun i => values[i]?.getD false

/-- The smallest number of variables that meets all constraints. -/
def minimise : Solver := fun m =>
  let chosen := (HittingSet.smallest? m.size m.constraints).getD []
  { values := (List.range m.size).map (chosen.contains ·), optimal := true }

end Model

/-- A cover read off a solution. -/
structure Baseline where
  members : List Label
  order : Nat
  edgeCount : Nat
  optimal : Bool
deriving DecidableEq, Repr

namespace Graph

/-- The covering program of a graph; a loop forces its node. -/
def model (g : Graph) : Model where
  size := g.order
  constraints := g.edges.map fun (u, v) =>
    if u = v then [g.nodes.idxOf u] else [g.nodes.idxOf u, g.nodes.idxOf v]

/-- The cover a solver gives for the graph; without edges the solver is not asked. -/
def baseline (g : Graph) (solver : Solver) : Baseline :=
  if g.edges.isEmpty then
    { members := [], order := g.order, edgeCount := 0, optimal := true }
  else
    let solution := solver g.model
    { members := g.select solution.values
      order := g.order
      edgeCount := g.edgeCount
      optimal := solution.optimal }

end Graph

end VertexCover
