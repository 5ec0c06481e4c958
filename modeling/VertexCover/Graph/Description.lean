import VertexCover.Graph.Matrix

/-! Graphs given by a description: a node count, a list of nodes or a matrix. -/
namespace VertexCover

/-- The ways to describe a graph. -/
inductive Description where
  /-- The nodes `0, …, n - 1`, with edges that must join known nodes. -/
  | counted (n : Int) (edges : List (Label × Label))
  /-- Nodes in order, with edges whose missing ends are added. -/
  | listed (nodes : List Label) (edges : List (Label × Label))
  /-- An adjacency matrix. -/
  | rows (array : Nested)

namespace Graph

/-- The graph on `0, …, n - 1` without edges, for a count that is not negative. -/
def ofCount (n : Int) : Except Fault Graph :=
  if n < 0 then .error (.negativeOrder n) else .ok (empty n.toNat)

/-- Adds edges between known nodes, one after the other. -/
def addEdges (g : Graph) : List (Label × Label) → Except Fault Graph
  | [] => .ok g
  | e :: rest =>
    match g.addEdge e.1 e.2 with
    | .error fault => .error fault
    | .ok next => next.addEdges rest

/-- The described graph. -/
def ofDescription : Description → Except Fault Graph
  | .counted n edges =>
    match ofCount n with
    | .error fault => .error fault
    | .ok g => g.addEdges edges
  | .listed nodes edges => .ok ((nodes.foldl insertNode (empty 0)).insertEdges edges)
  | .rows array => ofNested array

end Graph

end VertexCover
