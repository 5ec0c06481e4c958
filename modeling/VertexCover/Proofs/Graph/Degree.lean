import Mathlib.Algebra.BigOperators.Ring.Finset
import VertexCover.Proofs.Cover

/-!
# Degrees

The degree of a node counts edge ends, so a loop counts twice.

* `sum_degree`: the degrees of all nodes add up to twice the number of edges;
* `degree_eq`: apart from a loop, the degree is the number of neighbours.
-/

namespace VertexCover

/-- The items of a list counted by the values they can have. -/
theorem sum_map_count {α : Type} [DecidableEq α] {values items : List α} (nodup : values.Nodup)
    (listed : ∀ x ∈ items, x ∈ values) : (values.map (items.count ·)).sum = items.length := by
  have counted := Multiset.sum_count_eq_card (s := values.toFinset) (m := (items : Multiset α))
    fun x hx => List.mem_toFinset.mpr (listed x hx)
  rw [List.sum_toFinset _ nodup] at counted
  simpa only [Multiset.coe_count, Multiset.coe_card] using counted

namespace Graph

variable {g : Graph} {v : Label}

/-- The number of edge ends at a node. -/
def degree (g : Graph) (v : Label) : Nat :=
  (g.edges.map Prod.fst).count v + (g.edges.map Prod.snd).count v

theorem sum_degree (g : Graph) : (g.nodes.map g.degree).sum = 2 * g.edgeCount := by
  have first : (g.nodes.map ((g.edges.map Prod.fst).count ·)).sum = g.edgeCount := by
    rw [sum_map_count g.nodup, List.length_map, edgeCount]
    intro v hv
    obtain ⟨e, he, rfl⟩ := List.mem_map.mp hv
    exact (g.ends e he).1
  have second : (g.nodes.map ((g.edges.map Prod.snd).count ·)).sum = g.edgeCount := by
    rw [sum_map_count g.nodup, List.length_map, edgeCount]
    intro v hv
    obtain ⟨e, he, rfl⟩ := List.mem_map.mp hv
    exact (g.ends e he).2
  unfold degree
  rw [List.sum_map_add, first, second, Nat.two_mul]

/-! ## Neighbours -/

/-- No neighbour is found twice, since no edge is recorded twice. -/
theorem neighbours_nodup (g : Graph) (v : Label) : (g.neighbours v).Nodup := by
  rw [neighbours, List.nodup_iff_pairwise_ne, List.pairwise_filterMap]
  refine g.once.imp ?_
  rintro ⟨a, b⟩ ⟨c, d⟩ apart x hx y hy rfl
  simp only [joins, Bool.or_eq_false_iff, Bool.and_eq_false_iff, beq_eq_false_iff_ne] at apart
  dsimp only at hx hy
  grind

theorem length_neighbours (g : Graph) (v : Label) :
    (g.neighbours v).length = (g.adjacent v).length := by
  have same : (g.neighbours v).Perm (g.adjacent v) := by
    apply (List.perm_ext_iff_of_nodup (g.neighbours_nodup v) (g.nodup.filter _)).mpr
    intro u
    rw [mem_neighbours]
    exact mem_adjacent.symm
  exact same.length_eq

/-- An edge has one end at a node for every neighbour that it gives the node, and a loop has one
more. -/
theorem count_ends (edges : List (Label × Label)) (v : Label) :
    (edges.map Prod.fst).count v + (edges.map Prod.snd).count v =
      (edges.filterMap fun e =>
        if e.1 = v then some e.2 else if e.2 = v then some e.1 else none).length +
        edges.count (v, v) := by
  induction edges with
  | nil => rfl
  | cons e edges ih =>
    obtain ⟨a, b⟩ := e
    by_cases ha : a = v <;> by_cases hb : b = v <;>
      simp only [List.map_cons, List.count_cons, List.filterMap_cons, ha, hb, ↓reduceIte,
        beq_iff_eq, Prod.mk.injEq, List.length_cons, and_true, and_false] <;> omega

theorem degree_eq (g : Graph) (v : Label) :
    g.degree v = (g.adjacent v).length + g.edges.count (v, v) := by
  rw [← length_neighbours]
  exact count_ends g.edges v

/-- The degree of a node without a loop, by any list of its neighbours. -/
theorem degree_eq_length {others : List Label} (loopless : ¬ g.Adj v v) (nodup : others.Nodup)
    (same : ∀ u, g.Adj v u ↔ u ∈ others) : g.degree v = others.length := by
  have none : g.edges.count (v, v) = 0 :=
    List.count_eq_zero.mpr fun listed => loopless (adj_iff.mpr (.inl listed))
  have listed : (g.adjacent v).Perm others := by
    apply (List.perm_ext_iff_of_nodup (g.nodup.filter _) nodup).mpr
    intro u
    rw [← same u]
    exact mem_adjacent
  rw [degree_eq, none, listed.length_eq, Nat.add_zero]

end Graph

end VertexCover
