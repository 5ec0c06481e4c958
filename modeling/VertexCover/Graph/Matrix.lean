import VertexCover.Graph.Upper

/-! Adjacency matrices.

`matrix` writes a graph as a square of truth values in node order; `ofMatrix` reads one, an entry on
either side of the diagonal making the edge. `ofNested` takes lists nested to any depth and refuses
those that are no square. -/
namespace VertexCover

/-- Truth values in lists nested to any depth. -/
inductive Nested where
  | entry (value : Bool)
  | list (items : List Nested)
deriving Inhabited

namespace Nested

mutual

/-- The extents of a regular array: all items of a list have the same extents. -/
def shape? : Nested → Option (List Nat)
  | .entry _ => some []
  | .list items =>
    match shapes? items with
    | none => none
    | some [] => some [0]
    | some (first :: rest) =>
      if rest.all (· == first) then some ((rest.length + 1) :: first) else none

/-- The extents of all items, if each is regular. -/
def shapes? : List Nested → Option (List (List Nat))
  | [] => some []
  | item :: items =>
    match shape? item, shapes? items with
    | some extents, some others => some (extents :: others)
    | _, _ => none

end

/-- The entry of an item that is no list. -/
def value : Nested → Bool
  | .entry value => value
  | .list _ => false

/-- The items of a list. -/
def items : Nested → List Nested
  | .entry _ => []
  | .list items => items

/-- The rows of a two-dimensional array. -/
def rows (a : Nested) : List (List Bool) := a.items.map fun row => row.items.map value

/-- The array with the given rows. -/
def ofRows (rows : List (List Bool)) : Nested := .list (rows.map fun row => .list (row.map .entry))

end Nested

namespace Graph

/-- The adjacency matrix in node order. -/
def matrix (g : Graph) : List (List Bool) :=
  g.nodes.map fun u =>
    let around := g.neighbours u
    g.nodes.map (around.contains ·)

/-- The entry of a matrix at a row and a column, false outside it. -/
def entryAt (rows : List (List Bool)) (i j : Nat) : Bool := ((rows[i]?.getD [])[j]?).getD false

/-- The positions `i ≤ j` at which an entry of the matrix is set on either side. -/
def setEntries (rows : List (List Bool)) : List (Nat × Nat) :=
  (upper (List.range rows.length)).filter fun (i, j) => entryAt rows i j || entryAt rows j i

theorem setEntries_sublist (rows : List (List Bool)) :
    ((setEntries rows).map fun e => (Label.int e.1, Label.int e.2)).Sublist
      (upper (Label.upTo rows.length)) := by
  rw [Label.upTo, upper_map]
  exact List.filter_sublist.map _

/-- The frozen graph on `0, …, n - 1` for `n` rows, with an edge for every entry that is set. -/
def ofMatrix (rows : List (List Bool)) : Graph :=
  (ofUpper (Label.upTo rows.length) (Label.upTo_nodup _)
    ((setEntries rows).map fun e => (Label.int e.1, Label.int e.2))
    (setEntries_sublist rows)).freeze

/-- The most dimensions an array may have. -/
def depthLimit : Nat := 64

/-- The graph of an array that is a square or has no entry. An array that is too deep is refused like
one that is not regular. -/
def ofNested (array : Nested) : Except Fault Graph :=
  match array with
  | .entry _ => .error .wrongKind
  | .list items =>
    match array.shape? with
    | none => .error .raggedMatrix
    | some shape =>
      let n := items.length
      if depthLimit < shape.length then .error .raggedMatrix
      else if shape.contains 0 then .ok (empty n).freeze
      else if shape = [n, n] then .ok (ofMatrix array.rows)
      else .error (.malformed (.matrixShape n shape))

end Graph

end VertexCover
