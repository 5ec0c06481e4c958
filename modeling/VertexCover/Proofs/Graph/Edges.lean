import Mathlib.Data.Sym.Sym2
import VertexCover.Graph.Basic

/-!
# Edges without directions

An edge is recorded in one of its two directions, and which one that is shows nowhere.

* `links`: the edges as unordered pairs; `mem_links`, `links_nodup`: they are the adjacent pairs, each
  of them once;
* `Same`: two graphs with the same nodes and the same adjacency; `Same.edgeCount_eq`: they have
  equally many edges, however these are recorded;
* `withoutLoops`: the graph without its loops.
-/

namespace VertexCover.Graph

variable {g h : Graph} {u v : Label}

/-- The edges as unordered pairs. -/
def links (g : Graph) : List (Sym2 Label) := g.edges.map fun e => s(e.1, e.2)

theorem mem_links : s(u, v) ∈ g.links ↔ g.Adj u v := by
  rw [links, List.mem_map, adj_iff]
  constructor
  · rintro ⟨⟨a, b⟩, listed, same⟩
    rcases Sym2.eq_iff.mp same with ⟨rfl, rfl⟩ | ⟨rfl, rfl⟩
    · exact .inl listed
    · exact .inr listed
  · rintro (listed | listed)
    · exact ⟨(u, v), listed, rfl⟩
    · exact ⟨(v, u), listed, Sym2.eq_swap⟩

theorem links_nodup (g : Graph) : g.links.Nodup := by
  rw [links, List.nodup_iff_pairwise_ne, List.pairwise_map]
  refine g.once.imp ?_
  intro e f apart same
  have joined : joins e f.1 f.2 = true := joins_iff.mpr (Sym2.mk_eq_mk_iff.mp same)
  simp [joined] at apart

/-- The same nodes in the same order and the same edges, in whatever order and direction these are
recorded. -/
structure Same (g h : Graph) : Prop where
  nodes : g.nodes = h.nodes
  adj : ∀ u v, g.Adj u v ↔ h.Adj u v

theorem Same.edgeCount_eq (same : g.Same h) : g.edgeCount = h.edgeCount := by
  have listed : g.links.Perm h.links := by
    apply (List.perm_ext_iff_of_nodup g.links_nodup h.links_nodup).mpr
    intro link
    induction link with
    | h u v => rw [mem_links, mem_links, same.adj]
  have length (g : Graph) : g.links.length = g.edgeCount := List.length_map _
  rw [← length g, ← length h, listed.length_eq]

/-- The graph without its loops. -/
def withoutLoops (g : Graph) : Graph :=
  { g with
    edges := g.edges.filter fun e => e.1 ≠ e.2
    ends := fun e he => g.ends e (List.mem_filter.mp he).1
    once := g.once.filter _ }

theorem adj_withoutLoops : g.withoutLoops.Adj u v ↔ u ≠ v ∧ g.Adj u v := by
  simp only [adj_iff, withoutLoops, List.mem_filter, decide_eq_true_eq]
  constructor
  · rintro (⟨listed, different⟩ | ⟨listed, different⟩)
    · exact ⟨different, .inl listed⟩
    · exact ⟨different.symm, .inr listed⟩
  · rintro ⟨different, listed | listed⟩
    · exact .inl ⟨listed, different⟩
    · exact .inr ⟨listed, different.symm⟩

end VertexCover.Graph
