import VertexCover.Graph.Complement
import VertexCover.Graph.Description
import VertexCover.Instance.GraphBlock

/-! Sessions on one graph.

A session starts with the graph without nodes. Some steps put another graph in its place, one adds an
edge, one freezes the graph, and all others only look at it. A step that fails changes nothing. -/
namespace VertexCover

namespace Graph

/-- A step of a session. -/
inductive Step where
  | empty (n : Int)
  | build (description : Description)
  | addEdge (u v : Label)
  | freeze
  | complement
  | adjacency (v : Label)
  | matrix
  | vector (members : List Label)
  | select (flags : List Bool)
  | edges
  | block

/-- What a step answers. -/
inductive Answer where
  | done
  | frozen (frozen : Bool)
  | labels (labels : List Label)
  | flags (flags : List Bool)
  | rows (rows : List (List Bool))
  | set (members : List Label)
  | graph (graph : Graph)
  | text (text : String)

/-- The answer of a step and the graph after it. -/
def step (g : Graph) : Step → Except Fault (Answer × Graph)
  | .empty n => (ofCount n).map (.done, ·)
  | .build description => (ofDescription description).map (.done, ·)
  | .addEdge u v => (g.addEdge u v).map (.done, ·)
  | .freeze => .ok (.frozen true, g.freeze)
  | .complement => .ok (.done, g.complement)
  | .adjacency v => (g.adjacent? v).map fun around => (.labels around, g)
  | .matrix => .ok (.rows g.matrix, g)
  | .vector members => .ok (.flags (g.vector members), g)
  | .select flags => (g.select? flags).map fun members => (.set members, g)
  | .edges => .ok (.graph g, g)
  | .block => .ok (.text g.block, g)

/-- The session after a step: a failed step changes nothing. -/
def advance (g : Graph) (s : Step) : Graph :=
  match g.step s with
  | .ok (_, next) => next
  | .error _ => g

/-- The answers of a session, each with the graph after its step. -/
def session (g : Graph) : List Step → List (Except Fault Answer × Graph)
  | [] => []
  | s :: rest => ((g.step s).map Prod.fst, g.advance s) :: (g.advance s).session rest

end Graph

end VertexCover
