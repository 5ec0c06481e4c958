import VertexCover.Graph.Complement

/-! Checks of vertex sets, and the exhaustive search for a smallest cover.

The checks take any list of labels, inside the graph or not. -/
namespace VertexCover.Graph

/-- Every edge has an end among the labels; a loop is only covered by its node. -/
def isCover (g : Graph) (members : List Label) : Bool :=
  g.edges.all fun (u, v) => members.contains u || members.contains v

/-- The labels are a cover, and leaving out any one of them breaks it. -/
def isMinimalCover (g : Graph) (members : List Label) : Bool :=
  g.isCover members &&
    members.all fun v => !g.isCover (members.filter fun u => u != v)

/-- Any two items of the list are joined by an edge; a label listed twice needs a loop. -/
def isClique (g : Graph) (members : List Label) : Bool :=
  (pairs members).all fun (u, v) => g.hasEdge u v

/-- No edge has both ends among the labels. -/
def isIndependent (g : Graph) (members : List Label) : Bool :=
  g.edges.all fun (u, v) => !(members.contains u && members.contains v)

/-- The first way to add `k` of the listed items, in list order, to those taken (latest first) that
is accepted. Earlier items are tried before later ones. -/
def firstChoice (accept : List Label → Bool) (taken : List Label) :
    Nat → List Label → Option (List Label)
  | 0, _ => if accept taken.reverse then some taken.reverse else none
  | _ + 1, [] => none
  | k + 1, v :: rest =>
    match firstChoice accept (v :: taken) k rest with
    | some chosen => some chosen
    | none => firstChoice accept taken (k + 1) rest

/-- The first cover by size and then by choice of nodes. -/
def firstCover (g : Graph) : List Label :=
  ((List.range (g.order + 1)).findSome? fun k => firstChoice g.isCover [] k g.nodes).getD g.nodes

/-- A smallest cover found by trying all sets of nodes, for graphs up to a limit if there is one. -/
def exhaustiveCover (g : Graph) (limit : Option Int) : Except Fault (List Label) :=
  match limit with
  | none => .ok g.firstCover
  | some limit =>
    if limit < g.order then .error (.exhaustiveLimit limit g.order) else .ok g.firstCover

end VertexCover.Graph
