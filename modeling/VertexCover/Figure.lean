import VertexCover.Graph.Basic

/-! Figures of a graph with highlighted nodes, as far as their words go. -/
namespace VertexCover

/-- The words on a figure. -/
structure Figure where
  title : String
  /-- The entries of the legend; there is no legend if nothing is highlighted. -/
  legend : Option (List String)
  /-- The texts at the nodes, sorted. -/
  labels : List String
deriving DecidableEq, Repr

/-- A legend lists a text unless it is empty or hidden by a leading underscore. -/
def Figure.isListed (text : String) : Bool := text != "" && text.toList.head? != some '_'

/-- The figure of a graph with the given labels highlighted. The title counts the different labels,
whether they are nodes or not. -/
def Graph.figure (g : Graph) (members : List Label) (title highlight : String) : Figure where
  title := s!"{title} ({highlight} size {Text.ofNatural members.eraseDups.length})"
  legend := if g.nodes.any (members.contains ·) then some ([highlight].filter Figure.isListed) else none
  labels := (g.nodes.map Label.bare).mergeSort fun a b => decide (a ≤ b)

end VertexCover
