import Mathlib.Data.List.TFAE
import VertexCover.Proofs.Graph.Degree
import VertexCover.Proofs.Graph.Edges
import VertexCover.Proofs.Graph.Matrix

/-!
# Three views of a graph

The neighbours of a node can be asked for as labels, read off a row of the matrix, or taken from the
lists of positions that the searches work on.

* `pairwise_adjacent`: labels of neighbours come in node order;
* `getElem?_row_iff`, `mem_listed_iff`: an entry of the matrix and a listed position are edges;
* `count_matrix_add`: the entries that are set, counted by the degrees of the nodes;
* `views_agree`: the three views show one relation.
-/

namespace VertexCover.Graph
open Search

variable {g : Graph} {u v : Label} {i j : Nat}

theorem pairwise_adjacent (g : Graph) (v : Label) :
    (g.adjacent v).Pairwise fun a b => g.nodes.idxOf a < g.nodes.idxOf b := by
  have ascending : g.nodes.Pairwise fun a b => g.nodes.idxOf a < g.nodes.idxOf b := by
    rw [List.pairwise_iff_getElem]
    intro i j hi hj lt
    rwa [g.nodup.idxOf_getElem i hi, g.nodup.idxOf_getElem j hj]
  exact ascending.filter _

theorem adjacent?_eq_ok (hv : v ∈ g.nodes) : g.adjacent? v = .ok (g.adjacent v) :=
  if_pos (List.contains_iff_mem.mpr hv)

/-! ## The views at two positions -/

section
variable (hi : g.nodes[i]? = some u) (hj : g.nodes[j]? = some v)
include hi hj

theorem getElem?_row_iff {row : List Bool} (hr : g.matrix[i]? = some row) :
    row[j]? = some true ↔ g.Adj u v := by
  have set : entryAt g.matrix i j = true ↔ row[j]? = some true := by
    simp [entryAt_iff, hr]
  rw [← set, entryAt_matrix]
  simp [hi, hj]

theorem mem_listed_iff {listed : List Nat} (hl : g.positions[j]? = some listed) :
    i ∈ listed ↔ g.Adj u v := by
  rw [adj_comm, ← mem_positions_of_getElem? hj hi, around, hl]
  rfl

end

/-! ## Counting the entries -/

/-- The nodes with a loop. -/
def loops (g : Graph) : List Label := g.nodes.filter fun v => g.hasEdge v v

theorem edges_nodup (g : Graph) : g.edges.Nodup := g.links_nodup.of_map _

/-- A loop is recorded once. -/
theorem count_loop (g : Graph) (v : Label) :
    g.edges.count (v, v) = if g.hasEdge v v then 1 else 0 := by
  have listed : (v, v) ∈ g.edges ↔ g.hasEdge v v = true := by
    rw [← or_self ((v, v) ∈ g.edges)]
    exact adj_iff.symm
  by_cases loop : g.hasEdge v v = true
  · rw [if_pos loop]
    exact List.count_eq_one_of_mem g.edges_nodup (listed.mpr loop)
  · rw [if_neg loop]
    exact List.count_eq_zero.mpr (mt listed.mp loop)

theorem sum_count_loop (g : Graph) :
    (g.nodes.map fun v => g.edges.count (v, v)).sum = g.loops.length := by
  simp only [count_loop, loops]
  generalize g.nodes = nodes
  induction nodes with
  | nil => rfl
  | cons v nodes ih =>
    rw [List.map_cons, List.sum_cons, ih, List.filter_cons]
    split
    · rw [List.length_cons, Nat.add_comm]
    · exact Nat.zero_add _

/-- A row of the matrix has an entry for every neighbour. -/
theorem count_matrix (g : Graph) :
    g.matrix.flatten.count true = (g.nodes.map fun v => (g.adjacent v).length).sum := by
  rw [List.count_flatten, matrix, List.map_map]
  congr 1
  apply List.map_congr_left
  intro v _
  change (g.nodes.map ((g.neighbours v).contains ·)).count true = _
  rw [adjacent, ← List.countP_eq_length_filter, List.count_eq_countP, List.countP_map]
  apply List.countP_congr
  intro u _
  simp

/-- Every edge sets two entries, one for each of its ends, but a loop sets only one. -/
theorem count_matrix_add (g : Graph) :
    g.matrix.flatten.count true + g.loops.length = 2 * g.edgeCount := by
  have split : g.nodes.map g.degree =
      g.nodes.map fun v => (g.adjacent v).length + g.edges.count (v, v) :=
    List.map_congr_left fun v _ => g.degree_eq v
  rw [← sum_degree, split, List.sum_map_add, ← count_matrix, sum_count_loop]

/-- **The views of a graph agree.** For two nodes at any positions it is the same to find the one in
the list of the other, in either direction, to find the entry of the matrix set, and to find the
position of the one in the list of positions of the other: each says that they are adjacent. The
lists follow the order of the nodes. The matrix is a square, and the entries that are set are two for
every edge but one for a loop. -/
theorem views_agree (g : Graph) :
    (∀ (i j : Nat) (u v : Label), g.nodes[i]? = some u → g.nodes[j]? = some v →
      ∃ (aroundU aroundV : List Label) (row : List Bool) (listed : List Nat),
        g.adjacent? u = .ok aroundU ∧ g.adjacent? v = .ok aroundV ∧
        g.matrix[i]? = some row ∧ g.positions[j]? = some listed ∧
        List.TFAE [g.Adj u v, u ∈ aroundV, v ∈ aroundU, row[j]? = some true, i ∈ listed]) ∧
    (∀ v ∈ g.nodes, ∃ aroundV, g.adjacent? v = .ok aroundV ∧
      aroundV.Pairwise fun a b => g.nodes.idxOf a < g.nodes.idxOf b) ∧
    (∀ listed ∈ g.positions, listed.Pairwise (· < ·)) ∧
    g.matrix.length = g.order ∧ (∀ row ∈ g.matrix, row.length = g.order) ∧
    g.matrix.flatten.count true + g.loops.length = 2 * g.edgeCount := by
  refine ⟨?_, fun v hv => ⟨_, adjacent?_eq_ok hv, g.pairwise_adjacent v⟩, ?_, g.length_matrix, ?_,
    g.count_matrix_add⟩
  · intro i j u v hi hj
    obtain ⟨row, hr⟩ : ∃ row, g.matrix[i]? = some row := by
      simp [matrix, hi]
    obtain ⟨listed, hl⟩ : ∃ listed, g.positions[j]? = some listed := by
      simp [positions, hj]
    refine ⟨_, _, row, listed, adjacent?_eq_ok (List.mem_of_getElem? hi),
      adjacent?_eq_ok (List.mem_of_getElem? hj), hr, hl, ?_⟩
    tfae_have 2 ↔ 1 := mem_adjacent.trans adj_comm
    tfae_have 3 ↔ 1 := mem_adjacent
    tfae_have 4 ↔ 1 := getElem?_row_iff hi hj hr
    tfae_have 5 ↔ 1 := mem_listed_iff hi hj hl
    tfae_finish
  · intro listed member
    obtain ⟨i, hi⟩ := List.mem_iff_getElem?.mp member
    have ascending := g.pairwise_around i
    rwa [around, hi] at ascending
  · intro row listed
    rw [g.square_matrix row listed, g.length_matrix]

example : let g := ((empty 2).insertEdge (.int 0) (.int 1)).insertEdge (.int 1) (.int 1)
    g.matrix = [[false, true], [true, true]] ∧ g.positions = [[1], [0, 1]] := by decide

end VertexCover.Graph
