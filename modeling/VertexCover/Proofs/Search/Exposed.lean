import VertexCover.Proofs.Check

/-!
# The test before a vertex is taken out

A cover is never checked as a whole while it is explored: only the neighbours of the vertex that is to
be taken out are looked at.

* `exposes_eq_false_iff_covers`: on a cover the test says whether the cover without the vertex is one;
* `exposes?_natCast`: the test on indices is the same test, where all indices are positions;
* `exposes?_exact`: the test on the vectors of a graph.
-/

namespace VertexCover

namespace Search

variable {adjacency : List (List Nat)} {cover : List Bool} {v : Nat}

/-- A cover stays one without the vertex exactly if none of the edges of the vertex is left
uncovered. The other edges have kept their ends. -/
theorem exposes_eq_false_iff_covers (both : Undirected adjacency) (h : Covers adjacency cover) :
    exposes adjacency cover v = false ↔ Covers adjacency (cover.set v false) := by
  constructor
  · exact h.set_false both
  · intro without
    rw [exposes_eq_false_iff]
    intro u hu
    have out : flag (cover.set v false) v = false := by simp [flag_set_false]
    have met : flag (cover.set v false) u = true := without.flag_of_out out hu
    rw [flag_set_false, Bool.and_eq_true, bne_iff_ne] at met
    exact ⟨met.2, met.1⟩

theorem exposes_of_loop (loop : v ∈ around adjacency v) : exposes adjacency cover v = true := by
  by_contra free
  exact (exposes_eq_false_iff.mp (Bool.eq_false_iff.mpr free) v loop).1 rfl

/-! ## The test on indices -/

/-- Positions as indices. -/
def indices (us : List Nat) : List Int := us.map fun u : Nat => (u : Int)

theorem resolveIndex_natCast {length : Nat} (inside : v < length) :
    resolveIndex length (v : Int) = some v := by
  unfold resolveIndex
  rw [if_pos (Int.natCast_nonneg v), if_pos (Int.ofNat_lt.mpr inside), Int.toNat_natCast]

/-- Neighbours that are positions of the cover are looked up to the first that shows an uncovered
edge, and none of them is refused. -/
theorem exposedBy_natCast {us : List Nat} (inside : ∀ u ∈ us, u < cover.length) :
    exposedBy cover v (indices us) = .ok (us.any fun u => u == v || !flag cover u) := by
  induction us with
  | nil => rfl
  | cons u us ih =>
    obtain ⟨here, later⟩ := List.forall_mem_cons.mp inside
    rw [indices, List.map_cons, ← indices, exposedBy, List.any_cons]
    by_cases same : u = v
    · simp [same]
    · have other : (u : Int) ≠ v := fun h => same (Int.ofNat_inj.mp h)
      rw [if_neg other, resolveIndex_natCast here]
      cases covered : flag cover u with
      | false =>
        rw [flag] at covered
        simp [covered]
      | true =>
        rw [flag] at covered
        simp [covered, ih later, same]

theorem exposes?_natCast (hv : v < adjacency.length)
    (inside : ∀ u ∈ around adjacency v, u < cover.length) :
    exposes? (adjacency.map indices) cover v = .ok (exposes adjacency cover v) := by
  have listed : (adjacency.map indices)[v]?.getD [] = indices (around adjacency v) := by
    rw [around, List.getElem?_map, List.getElem?_eq_getElem hv]
    rfl
  rw [exposes?, List.length_map, resolveIndex_natCast hv]
  exact (congrArg _ listed).trans (exposedBy_natCast inside)

end Search

namespace Graph
open Search

variable {g : Graph} {flags : List Bool}

/-- The check of the nodes that are selected is a check of the flags. -/
theorem isCover_select_iff : g.isCover (g.select flags) = true ↔ Covers g.positions flags := by
  constructor
  · intro accepted i j hj
    obtain ⟨u, v, hu, hv, adj⟩ := mem_positions.mp hj
    rw [← mem_select_of_getElem? hu, ← mem_select_of_getElem? hv]
    exact isCover_iff.mp accepted u v adj
  · intro covers
    exact isCover_iff.mpr (isVertexCover_select covers).meets

theorem lt_order_of_mem_around {i j : Nat} (h : j ∈ around g.positions i) : j < g.order := by
  obtain ⟨_, _, _, hj, _⟩ := mem_positions.mp h
  exact (List.getElem?_eq_some_iff.mp hj).1

/-- **The local test is exact.** For a vector with a flag for every node the test at any node gives an
answer. If the nodes of the vector cover every edge, then the answer is no exactly if they still do
without that node. At a node with a loop it is yes, whatever the vector. The search asks the same
question. -/
theorem exposes?_exact (length : flags.length = g.order) {i : Nat} {v : Label}
    (node : g.nodes[i]? = some v) :
    ∃ answer,
      exposes? (g.positions.map indices) flags i = .ok answer ∧
      exposes g.positions flags i = answer ∧
      (g.isCover (g.select flags) = true →
        (answer = false ↔ g.isCover (g.select (flags.set i false)) = true)) ∧
      (g.Adj v v → answer = true) := by
  have inside : i < g.positions.length := by
    rw [length_positions]
    exact (List.getElem?_eq_some_iff.mp node).1
  refine ⟨_, exposes?_natCast inside fun j hj => ?_, rfl, fun accepted => ?_, fun loop => ?_⟩
  · rw [length]
    exact lt_order_of_mem_around hj
  · rw [isCover_select_iff,
      exposes_eq_false_iff_covers g.undirected_positions (isCover_select_iff.mp accepted)]
  · exact exposes_of_loop ((mem_positions_of_getElem? node node).mpr loop)

/-- On a path of three nodes the first one can be taken out of the cover of the first two. -/
theorem exposes?_exact_path :
    let g := ((empty 3).insertEdge (.int 0) (.int 1)).insertEdge (.int 1) (.int 2)
    let flags := [true, true, false]
    flags.length = g.order ∧ g.nodes[0]? = some (.int 0) ∧
      g.isCover (g.select flags) = true ∧
      exposes? (g.positions.map indices) flags (0 : Nat) = .ok false ∧
      g.isCover (g.select (flags.set 0 false)) = true := by
  intro g flags
  have length : flags.length = g.order := by decide
  have node : g.nodes[0]? = some (.int 0) := by decide
  have accepted : g.isCover (g.select flags) = true := by decide
  obtain ⟨answer, found, same, decided, _⟩ := exposes?_exact length node
  have free : answer = false := by
    rw [← same]
    decide
  rw [free] at found
  exact ⟨length, node, accepted, found, (decided accepted).mp free⟩

end Graph

end VertexCover
