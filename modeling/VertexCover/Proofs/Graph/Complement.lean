import Mathlib.Data.Nat.Choose.Basic
import VertexCover.Proofs.Check
import VertexCover.Proofs.Graph.Edges
import VertexCover.Proofs.Graph.Insertion

/-!
# The complement of the complement

The edges of a complement are pairs of an earlier and a later node, so no pair is listed twice. Those
of the complement and those of the complement of the complement together are all such pairs.

* `nonEdges_eq`: the edges of the complement as a part of all pairs;
* `insertEdges_missing`: the complement also comes about edge by edge, if every missing edge is added
  from both of its ends;
* `complement_complement`: complementing twice gives the graph without its loops, and the edges of a
  graph and of its complement are counted together.
-/

namespace VertexCover

theorem length_pairs {α : Type} (xs : List α) : (pairs xs).length = xs.length.choose 2 := by
  induction xs with
  | nil => rfl
  | cons x xs ih =>
    rw [pairs, List.length_append, List.length_map, ih, List.length_cons, Nat.choose_succ_succ,
      Nat.choose_one_right]

theorem forall_mem_pairs {xs : List Label} (nodup : xs.Nodup) :
    ∀ e ∈ pairs xs, e.1 ∈ xs ∧ e.2 ∈ xs ∧ e.1 ≠ e.2 := by
  intro e he
  have known := mem_of_mem_upper ((pairs_sublist_upper xs).subset he)
  have apart : (pairs xs).all (fun e => decide (e.1 ≠ e.2)) = true :=
    all_pairs_iff.mpr (nodup.imp fun different => decide_eq_true different)
  exact ⟨known.1, known.2, of_decide_eq_true (List.all_eq_true.mp apart e he)⟩

namespace Graph

variable {g : Graph} {u v : Label}

/-! ## The edges of a complement -/

theorem contains_neighbours (g : Graph) (u v : Label) :
    (g.neighbours u).contains v = g.hasEdge u v := by
  rw [Bool.eq_iff_iff, List.contains_iff_mem, mem_neighbours, Adj]

theorem nonEdges_eq (g : Graph) (nodes : List Label) :
    g.nonEdges nodes = (pairs nodes).filter fun e => !g.hasEdge e.1 e.2 := by
  induction nodes with
  | nil => rfl
  | cons u rest ih =>
    simp only [nonEdges, contains_neighbours, ih, pairs, List.filter_append, List.filter_map]
    rfl

theorem edges_complement (g : Graph) :
    g.complement.edges = (pairs g.nodes).filter fun e => !g.hasEdge e.1 e.2 :=
  g.nonEdges_eq g.nodes

/-- The pairs that the complement leaves out are the ones that the graph joins. -/
theorem edges_complement_complement (g : Graph) :
    g.complement.complement.edges = (pairs g.nodes).filter fun e => g.hasEdge e.1 e.2 := by
  rw [edges_complement]
  apply List.filter_congr
  intro e he
  obtain ⟨first, second, different⟩ := forall_mem_pairs g.nodup e he
  have joined : g.complement.hasEdge e.1 e.2 = true ↔ ¬ g.hasEdge e.1 e.2 = true := by
    rw [← Adj, ← Adj, adj_complement]
    exact ⟨fun adj => adj.2.2.2, fun apart => ⟨first, second, different, apart⟩⟩
  rw [Bool.eq_iff_iff, Bool.not_eq_true', ← Bool.not_eq_true, joined, not_not]

theorem edgeCount_complement_add (g : Graph) :
    g.complement.complement.edgeCount + g.complement.edgeCount = g.order.choose 2 := by
  rw [edgeCount, edgeCount, edges_complement_complement, edges_complement, order, ← length_pairs]
  exact (List.length_eq_length_filter_add _).symm

theorem adj_complement_complement : g.complement.complement.Adj u v ↔ u ≠ v ∧ g.Adj u v := by
  rw [adj_complement, adj_complement]
  constructor
  · rintro ⟨hu, hv, different, joined⟩
    exact ⟨different, not_not.mp fun apart => joined ⟨hu, hv, different, apart⟩⟩
  · rintro ⟨different, adj⟩
    exact ⟨adj.left_mem, adj.right_mem, different, fun joined => joined.2.2.2 adj⟩

theorem withoutLoops_same (g : Graph) : g.withoutLoops.Same g.complement.complement where
  nodes := rfl
  adj := by
    intro u v
    rw [adj_withoutLoops, adj_complement_complement]

/-! ## Adding the missing edges -/

/-- For every node the nodes that it is not joined with, apart from itself. -/
def missing (g : Graph) : List (Label × Label) :=
  g.nodes.flatMap fun u => (g.nodes.filter fun v => u ≠ v ∧ ¬ g.Adj u v).map (u, ·)

theorem mem_missing : (u, v) ∈ g.missing ↔ g.complement.Adj u v := by
  simp only [missing, List.mem_flatMap, List.mem_map, List.mem_filter, decide_eq_true_eq,
    Prod.mk.injEq, adj_complement]
  constructor
  · rintro ⟨_, hu, _, ⟨hv, apart⟩, rfl, rfl⟩
    exact ⟨hu, hv, apart⟩
  · rintro ⟨hu, hv, apart⟩
    exact ⟨u, hu, v, ⟨hv, apart⟩, rfl, rfl⟩

/-- Every missing edge is met from both of its ends, and the second time it is there. -/
theorem insertEdges_missing (g : Graph) :
    ((edgeless g.nodes g.nodup).insertEdges g.missing).Same g.complement where
  nodes := by
    refine nodes_insertEdges fun e he => ?_
    have adj := mem_missing.mp he
    exact ⟨adj.left_mem, adj.right_mem⟩
  adj := by
    intro u v
    rw [adj_insertEdges_of_nil rfl, mem_missing, mem_missing, adj_comm (u := v), or_self]

/-- **Complements.** Complementing a graph twice keeps its nodes in their order and leaves exactly
the edges that are no loops, each of them once. These edges and the edges of the complement, which
is also the graph that comes about by adding every missing edge from both of its ends, are as many
as there are pairs of nodes. -/
theorem complement_complement (g : Graph) :
    g.complement.complement.nodes = g.nodes ∧
    (∀ u v, g.complement.complement.Adj u v ↔ u ≠ v ∧ g.Adj u v) ∧
    g.complement.complement.edgeCount = (g.edges.filter fun e => e.1 ≠ e.2).length ∧
    ((edgeless g.nodes g.nodup).insertEdges g.missing).Same g.complement ∧
    (g.edges.filter fun e => e.1 ≠ e.2).length + g.complement.edgeCount =
      g.order * (g.order - 1) / 2 := by
  have proper : (g.edges.filter fun e => e.1 ≠ e.2).length = g.complement.complement.edgeCount :=
    g.withoutLoops_same.edgeCount_eq
  refine ⟨rfl, fun u v => adj_complement_complement, proper.symm, g.insertEdges_missing, ?_⟩
  rw [proper, edgeCount_complement_add, Nat.choose_two_right]

end Graph

end VertexCover
