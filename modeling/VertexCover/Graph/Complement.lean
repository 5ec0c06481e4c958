import VertexCover.Graph.Upper

/-! The complement of a graph. -/
namespace VertexCover.Graph

/-- The pairs of an earlier and a later node that no edge joins. -/
def nonEdges (g : Graph) : List Label → List (Label × Label)
  | [] => []
  | u :: rest =>
    let around := g.neighbours u
    (rest.filter fun v => !around.contains v).map (u, ·) ++ g.nonEdges rest

theorem nonEdges_sublist (g : Graph) (nodes : List Label) :
    (g.nonEdges nodes).Sublist (upper nodes) := by
  induction nodes with
  | nil => exact .slnil
  | cons u rest ih => exact .cons _ (.append (List.filter_sublist.map _) ih)

/-- The graph on the same nodes that joins two different nodes exactly if this one does not. -/
def complement (g : Graph) : Graph :=
  ofUpper g.nodes g.nodup (g.nonEdges g.nodes) (g.nonEdges_sublist g.nodes)

end VertexCover.Graph
