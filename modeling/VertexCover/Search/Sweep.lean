import VertexCover.Search.State

/-! Branch and bound over vertex exclusions.

The search starts from a cover and takes vertices out of it one at a time, in ascending order, as
long as every edge stays covered. A branch ends where the next vertex cannot be taken out or where
no later vertex is left; a branch that cannot beat the best size is cut. -/
namespace VertexCover.Search

/-- Taking the vertex out of the cover would leave one of its edges uncovered; a loop always counts
as such an edge. -/
def exposes (adjacency : List (List Nat)) (cover : List Bool) (v : Nat) : Bool :=
  (adjacency[v]?.getD []).any fun u => u == v || !(cover[u]?.getD false)

/-- The same test on a list of neighbours named by indices, which are looked up one after the other
until an uncovered edge shows. -/
def exposedBy (cover : List Bool) (v : Int) : List Int → Except Fault Bool
  | [] => .ok false
  | u :: rest =>
    if u = v then .ok true
    else
      match resolveIndex cover.length u with
      | none => .error .badIndex
      | some i => if cover[i]?.getD false then exposedBy cover v rest else .ok true

/-- The same test with a vertex and neighbours named by indices that may count from the end. -/
def exposes? (adjacency : List (List Int)) (cover : List Bool) (v : Int) : Except Fault Bool :=
  match resolveIndex adjacency.length v with
  | none => .error .badIndex
  | some i => exposedBy cover v (adjacency[i]?.getD [])

/-- Explores, for each candidate in turn, the covers in which it is the next vertex taken out. With
`bounded` false no branch is cut. -/
def sweep (adjacency : List (List Nat)) (bounded : Bool) : List Nat → State → State
  | [], s => s
  | v :: rest, s =>
    let s :=
      if s.targetMet then s
      else
        let s := s.enter
        if exposes adjacency s.cover v then s.record
        else
          let inner := s.exclude v
          let inner :=
            if rest.isEmpty then inner.record
            else if bounded && inner.hopeless rest.length then inner.cut
            else sweep adjacency bounded rest inner
          inner.reinstate v
    sweep adjacency bounded rest s

end VertexCover.Search
