import VertexCover.Graph.Basic

/-! What inserted edges do to the nodes and to adjacency. An edge between known nodes adds no node,
and two labels are adjacent afterwards if they were before or an inserted edge joins them. -/
namespace VertexCover.Graph

variable {g : Graph} {u v a b : Label} {pairs : List (Label × Label)}

theorem insertNode_of_mem (h : v ∈ g.nodes) : g.insertNode v = g := dif_pos h

theorem adj_insertNode : (g.insertNode a).Adj u v ↔ g.Adj u v := by
  rw [adj_iff, adj_iff, edges_insertNode]

theorem nodes_link (ha : a ∈ g.nodes) (hb : b ∈ g.nodes) : (g.link a b ha hb).nodes = g.nodes := by
  unfold link
  split <;> rfl

theorem adj_link (ha : a ∈ g.nodes) (hb : b ∈ g.nodes) :
    (g.link a b ha hb).Adj u v ↔ g.Adj u v ∨ (u, v) = (a, b) ∨ (v, u) = (a, b) := by
  unfold link
  split
  · rename_i there
    refine ⟨.inl, ?_⟩
    rintro (adj | same | same)
    · exact adj
    · injection same with hu hv
      subst hu hv
      exact there
    · injection same with hv hu
      subst hu hv
      exact adj_comm.mp there
  · simp only [adj_iff, List.mem_cons]
    grind

theorem nodes_insertEdge (ha : a ∈ g.nodes) (hb : b ∈ g.nodes) :
    (g.insertEdge a b).nodes = g.nodes := by
  rw [insertEdge, nodes_link, insertNode_of_mem ha, insertNode_of_mem hb]

theorem adj_insertEdge :
    (g.insertEdge a b).Adj u v ↔ g.Adj u v ∨ (u, v) = (a, b) ∨ (v, u) = (a, b) := by
  rw [insertEdge, adj_link, adj_insertNode, adj_insertNode]

/-- Edges between known nodes add no node. -/
theorem nodes_insertEdges (ends : ∀ e ∈ pairs, e.1 ∈ g.nodes ∧ e.2 ∈ g.nodes) :
    (g.insertEdges pairs).nodes = g.nodes := by
  unfold insertEdges
  induction pairs generalizing g with
  | nil => rfl
  | cons e rest ih =>
    obtain ⟨first, second⟩ := ends e List.mem_cons_self
    have same := nodes_insertEdge first second
    rw [List.foldl_cons, ih, same]
    intro d hd
    rw [same]
    exact ends d (List.mem_cons_of_mem _ hd)

/-- Two labels are adjacent after the insertion if they were before or an inserted edge joins
them. -/
theorem adj_insertEdges :
    (g.insertEdges pairs).Adj u v ↔ g.Adj u v ∨ (u, v) ∈ pairs ∨ (v, u) ∈ pairs := by
  unfold insertEdges
  induction pairs generalizing g with
  | nil => simp
  | cons e rest ih =>
    rw [List.foldl_cons, ih, adj_insertEdge]
    simp only [List.mem_cons]
    grind

theorem adj_insertEdges_of_nil (bare : g.edges = []) :
    (g.insertEdges pairs).Adj u v ↔ (u, v) ∈ pairs ∨ (v, u) ∈ pairs := by
  rw [adj_insertEdges, adj_iff, bare]
  exact or_iff_right (not_or_intro List.not_mem_nil List.not_mem_nil)

end VertexCover.Graph
