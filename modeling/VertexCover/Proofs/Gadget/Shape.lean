import VertexCover.Gadget
import VertexCover.Proofs.Cover
import VertexCover.Proofs.Formula.Evaluation
import VertexCover.Proofs.Graph.Insertion
import VertexCover.Proofs.Label

/-! The gadget graph in numbers: its nodes are `0, …, 2n + 3m - 1`, and two of them are adjacent
exactly if the pair, in one of its directions, is a listed gadget edge. A vertex cover is then a set
of numbers that meets every listed edge. -/
namespace VertexCover

theorem Literal.node_lt_iff {l : Literal} {n : Nat} : l.node < 2 * n ↔ l.var ≤ n := by
  have least := l.var_pos
  unfold node
  split <;> omega

namespace Formula
open VertexCover.Graph

variable {f : Formula} {members : List Label}

theorem mem_gadgetEdges {e : Nat × Nat} :
    e ∈ f.gadgetEdges ↔ (∃ i < f.varCount, e = (2 * i, 2 * i + 1)) ∨
      ∃ k c, f.clauses[k]? = some c ∧ e ∈ clauseEdges c (2 * f.varCount + 3 * k) := by
  simp only [gadgetEdges, List.mem_append, List.mem_map, List.mem_range, List.mem_flatMap]
  constructor
  · rintro (⟨i, hi, rfl⟩ | ⟨⟨c, k⟩, hc, he⟩)
    · exact .inl ⟨i, hi, rfl⟩
    · exact .inr ⟨k, c, List.mk_mem_zipIdx_iff_getElem?.mp hc, he⟩
  · rintro (⟨i, hi, rfl⟩ | ⟨k, c, hc, he⟩)
    · exact .inl ⟨i, hi, rfl⟩
    · exact .inr ⟨(c, k), List.mk_mem_zipIdx_iff_getElem?.mpr hc, he⟩

theorem node_lt {l : Literal} (h : l ∈ f.literals) : l.node < 2 * f.varCount :=
  Literal.node_lt_iff.mpr (le_varCount h)

/-- The ends of the gadget edges are nodes. -/
theorem gadgetEdges_lt {e : Nat × Nat} (h : e ∈ f.gadgetEdges) :
    e.1 < 2 * f.varCount + 3 * f.size ∧ e.2 < 2 * f.varCount + 3 * f.size := by
  rcases mem_gadgetEdges.mp h with ⟨i, hi, rfl⟩ | ⟨k, c, hc, he⟩
  · dsimp only
    omega
  · obtain ⟨inside, _⟩ := List.getElem?_eq_some_iff.mp hc
    have member := List.mem_of_getElem? hc
    have first := node_lt (mem_literals (l := c.first) member (by simp [Clause.literals]))
    have second := node_lt (mem_literals (l := c.second) member (by simp [Clause.literals]))
    have third := node_lt (mem_literals (l := c.third) member (by simp [Clause.literals]))
    simp only [clauseEdges, List.mem_cons, List.not_mem_nil, or_false] at he
    unfold Formula.size
    rcases he with rfl | rfl | rfl | rfl | rfl | rfl <;> dsimp only <;> omega

theorem nodes_gadgetGraph (f : Formula) :
    f.gadgetGraph.nodes = Label.upTo (2 * f.varCount + 3 * f.size) := by
  change ((Graph.empty _).insertEdges _).nodes = _
  apply nodes_insertEdges
  intro e he
  obtain ⟨⟨i, j⟩, hij, rfl⟩ := List.mem_map.mp he
  obtain ⟨hi, hj⟩ := gadgetEdges_lt hij
  exact ⟨Label.ofNat_mem_upTo.mpr hi, Label.ofNat_mem_upTo.mpr hj⟩

theorem adj_gadgetGraph {u v : Label} : f.gadgetGraph.Adj u v ↔ ∃ i j,
    u = Label.ofNat i ∧ v = Label.ofNat j ∧ ((i, j) ∈ f.gadgetEdges ∨ (j, i) ∈ f.gadgetEdges) := by
  change ((Graph.empty _).insertEdges _).Adj u v ↔ _
  rw [adj_insertEdges_of_nil rfl]
  simp only [List.mem_map, Prod.mk.injEq]
  constructor
  · rintro (⟨⟨i, j⟩, h, rfl, rfl⟩ | ⟨⟨j, i⟩, h, rfl, rfl⟩)
    · exact ⟨i, j, rfl, rfl, .inl h⟩
    · exact ⟨i, j, rfl, rfl, .inr h⟩
  · rintro ⟨i, j, rfl, rfl, h | h⟩
    · exact .inl ⟨(i, j), h, rfl, rfl⟩
    · exact .inr ⟨(j, i), h, rfl, rfl⟩

/-- A set of labels is a vertex cover of the gadget graph exactly if it consists of numbered nodes
and meets every listed edge. -/
theorem isVertexCover_gadgetGraph_iff : f.gadgetGraph.IsVertexCover members ↔
    members.Nodup ∧ (∀ v ∈ members, v ∈ Label.upTo (2 * f.varCount + 3 * f.size)) ∧
      ∀ e ∈ f.gadgetEdges, Label.ofNat e.1 ∈ members ∨ Label.ofNat e.2 ∈ members := by
  constructor
  · intro h
    refine ⟨h.nodup, fun v hv => f.nodes_gadgetGraph ▸ h.nodes v hv, fun e he => ?_⟩
    exact h.meets _ _ (adj_gadgetGraph.mpr ⟨e.1, e.2, rfl, rfl, .inl he⟩)
  · rintro ⟨nodup, nodes, meets⟩
    refine ⟨nodup, fun v hv => f.nodes_gadgetGraph ▸ nodes v hv, fun u v adj => ?_⟩
    obtain ⟨i, j, rfl, rfl, h | h⟩ := adj_gadgetGraph.mp adj
    · exact meets (i, j) h
    · exact (meets (j, i) h).symm

end Formula

end VertexCover
