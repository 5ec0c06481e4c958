import VertexCover.Search.Sweep
import VertexCover.Graph.Basic

/-! The repair pass: members of degree one whose neighbour is a member too are dropped. -/
namespace VertexCover

namespace Search

/-- Takes a vertex out if its only neighbour is another member. -/
def dropPendant (adjacency : List (List Nat)) (cover : List Bool) (v : Nat) : List Bool :=
  match adjacency[v]?.getD [] with
  | [u] =>
    if cover[v]?.getD false && u != v && cover[u]?.getD false then cover.set v false else cover
  | _ => cover

/-- The pass over all vertices in ascending order. -/
def repair (adjacency : List (List Nat)) (cover : List Bool) : List Bool :=
  (List.range cover.length).foldl (dropPendant adjacency) cover

end Search

/-- The nodes among the given labels that are left by the repair pass. -/
def Graph.dropRedundant (g : Graph) (members : List Label) : List Label :=
  g.select (Search.repair g.positions (g.vector members))

end VertexCover
