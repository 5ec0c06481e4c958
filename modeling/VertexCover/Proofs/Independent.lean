import VertexCover.Proofs.Check

/-!
# Independent sets and covers

The nodes outside a vertex cover are independent, and the nodes outside an independent set are a
vertex cover: an edge is missed by the one exactly if it lies within the other. A node with a loop
is in every cover and so in no independent set; a node without an edge is in no smallest cover. The
checks of the three kinds of sets agree accordingly; the complement drops loops, and only there does
the duality need a condition.

* `isIndependent_without`, `IsIndependent.isVertexCover_without`: the two directions of the duality;
* `checks_dual`: the checks for covers, cliques and independent sets answer alike;
* `mem_maximumIndependent`: nodes without an edge are in the answer;
* `maximumIndependent_first`: what the search for a largest independent set returns.
-/

namespace VertexCover.Graph

variable {g : Graph} {v : Label} {members : List Label}

/-- A set of nodes with no edge between them; a loop is an edge between a node and itself. -/
structure IsIndependent (g : Graph) (members : List Label) : Prop where
  nodup : members.Nodup
  nodes : ∀ v ∈ members, v ∈ g.nodes
  apart : ∀ u ∈ members, ∀ v ∈ members, ¬ g.Adj u v

/-- Every edge has an end among the nodes left out exactly if none lies within the others. -/
theorem meets_without_iff :
    (∀ u v, g.Adj u v → u ∈ g.without members ∨ v ∈ g.without members) ↔
      ∀ u ∈ members, ∀ v ∈ members, ¬ g.Adj u v := by
  constructor
  · intro meets u hu v hv adj
    rcases meets u v adj with out | out
    · exact (mem_without.mp out).2 hu
    · exact (mem_without.mp out).2 hv
  · intro apart u v adj
    by_cases hu : u ∈ members
    · exact .inr (mem_without.mpr ⟨adj.right_mem, fun hv => apart u hu v hv adj⟩)
    · exact .inl (mem_without.mpr ⟨adj.left_mem, hu⟩)

theorem isIndependent_without (cover : g.IsVertexCover members) :
    g.IsIndependent (g.without members) where
  nodup := g.without_nodup members
  nodes := fun _ hv => (mem_without.mp hv).1
  apart := by
    intro u hu v hv adj
    rcases cover.meets u v adj with inside | inside
    · exact (mem_without.mp hu).2 inside
    · exact (mem_without.mp hv).2 inside

theorem IsIndependent.isVertexCover_without (independent : g.IsIndependent members) :
    g.IsVertexCover (g.without members) where
  nodup := g.without_nodup members
  nodes := fun _ hv => (mem_without.mp hv).1
  meets := meets_without_iff.mpr independent.apart

/-! ## The checks -/

theorem isIndependent_eq_isCover (g : Graph) (members : List Label) :
    g.isIndependent members = g.isCover (g.without members) := by
  rw [Bool.eq_iff_iff, isIndependent_iff, isCover_iff, meets_without_iff]

section
variable (nodup : members.Nodup) (nodes : ∀ v ∈ members, v ∈ g.nodes)
include nodup nodes

theorem isClique_eq_isIndependent :
    g.isClique members = g.complement.isIndependent members := by
  rw [Bool.eq_iff_iff, isClique_iff nodup, isIndependent_iff]
  constructor
  · intro joined u hu v hv adj
    obtain ⟨_, _, different, apart⟩ := adj_complement.mp adj
    exact apart (joined u hu v hv different)
  · intro apart u hu v hv different
    by_contra missing
    exact apart u hu v hv (adj_complement.mpr ⟨nodes u hu, nodes v hv, different, missing⟩)

/-- The complement has no loops, so a loop is the one thing that it does not show. -/
theorem isIndependent_eq_isClique (loopless : ∀ v ∈ members, ¬ g.Adj v v) :
    g.isIndependent members = g.complement.isClique members := by
  rw [Bool.eq_iff_iff, isIndependent_iff, isClique_iff nodup]
  constructor
  · intro apart u hu v hv different
    exact adj_complement.mpr ⟨nodes u hu, nodes v hv, different, apart u hu v hv⟩
  · intro joined u hu v hv adj
    by_cases same : u = v
    · subst same
      exact loopless u hu adj
    · exact (adj_complement.mp (joined u hu v hv same)).2.2.2 adj

end

/-- **The checks are dual.** For different nodes of a graph, the check for independent sets accepts
them exactly if the check for covers accepts the other nodes; the check for cliques accepts them
exactly if the other nodes pass as a cover of the complement. Independent sets of nodes without a
loop are the cliques of the complement, and nodes of which one has a loop are never independent. -/
theorem checks_dual (g : Graph) (members : List Label) (nodup : members.Nodup)
    (nodes : ∀ v ∈ members, v ∈ g.nodes) :
    g.isIndependent members = g.isCover (g.without members) ∧
    g.isClique members = g.complement.isCover (g.without members) ∧
    ((∀ v ∈ members, ¬ g.Adj v v) → g.isIndependent members = g.complement.isClique members) ∧
    ((∃ v ∈ members, g.Adj v v) → g.isIndependent members = false) := by
  refine ⟨g.isIndependent_eq_isCover members, ?_, isIndependent_eq_isClique nodup nodes, ?_⟩
  · rw [isClique_eq_isIndependent nodup nodes]
    exact g.complement.isIndependent_eq_isCover members
  · rintro ⟨v, hv, loop⟩
    rw [Bool.eq_false_iff, Ne, isIndependent_iff]
    exact fun apart => apart v hv v hv loop

/-- The ends of a path through a node with a loop: independent, and no clique. -/
theorem checks_dual_path : ∃ g : Graph, g.nodes = Label.upTo 3 ∧
    g.edges = [(.int 1, .int 1), (.int 1, .int 2), (.int 0, .int 1)] ∧
    g.without [.int 0, .int 2] = [.int 1] ∧
    g.isIndependent [.int 0, .int 2] = true ∧ g.isCover [.int 1] = true ∧
    g.isClique [.int 0, .int 2] = false ∧ g.complement.isCover [.int 1] = false ∧
    g.complement.isClique [.int 0, .int 2] = true := by
  let g := (Graph.empty 3).insertEdges [(.int 0, .int 1), (.int 1, .int 2), (.int 1, .int 1)]
  have independent : g.isIndependent [.int 0, .int 2] = true := by decide
  have apart : g.isClique [.int 0, .int 2] = false := by decide
  have rest : g.without [.int 0, .int 2] = [.int 1] := by decide
  obtain ⟨cover, clique, loopless, _⟩ :=
    checks_dual g [.int 0, .int 2] (by decide) (by decide)
  rw [rest] at cover clique
  exact ⟨g, by decide, by decide, rest, independent, cover ▸ independent, apart, clique ▸ apart,
    loopless (by decide) ▸ independent⟩

/-! ## The largest independent set -/

theorem members_maximumIndependent (g : Graph) :
    g.maximumIndependent.members = g.without (g.select (g.explore true none).best) :=
  congrArg g.without (g.members_minimumCover true)

/-- The search never puts a node without an edge into a cover. -/
theorem mem_maximumIndependent (node : v ∈ g.nodes) (isolated : ∀ u, ¬ g.Adj v u) :
    v ∈ g.maximumIndependent.members := by
  rw [members_maximumIndependent]
  refine mem_without.mpr ⟨node, fun member => ?_⟩
  obtain ⟨u, adj⟩ := touched_select (g.explore_sound true none).best member
  exact isolated u adj

/-- **The largest independent set.** The search always answers. Its answer is a set of nodes without
an edge between any two and without a loop, so the check accepts it, and it holds every node without
an edge. No set of nodes that the check accepts has more nodes; of those with as many, this one is
the first in the order of insertion: the first node on which it differs from another is its own. -/
theorem maximumIndependent_first (g : Graph) (seconds : Double) :
    (g.maximumIndependentLogged seconds).result = .ok g.maximumIndependent.members ∧
    g.IsIndependent g.maximumIndependent.members ∧
    g.isIndependent g.maximumIndependent.members = true ∧
    (∀ v ∈ g.nodes, (∀ u, ¬ g.Adj v u) → v ∈ g.maximumIndependent.members) ∧
    (∀ others : List Label, others.Nodup → (∀ v ∈ others, v ∈ g.nodes) →
      g.isIndependent others = true →
      others.length ≤ g.maximumIndependent.members.length ∧
      (others.length = g.maximumIndependent.members.length →
        (∃ v, ¬ (v ∈ others ↔ v ∈ g.maximumIndependent.members)) →
        g.Precedes g.maximumIndependent.members others ∧
          g.places g.maximumIndependent.members < g.places others)) := by
  have answer : g.IsIndependent g.maximumIndependent.members := by
    rw [members_maximumIndependent]
    exact isIndependent_without g.isMinimumCover_select_best.toIsVertexCover
  refine ⟨rfl, answer, isIndependent_iff.mpr answer.apart, fun v => mem_maximumIndependent, ?_⟩
  intro others nodup nodes accepted
  have cover := IsIndependent.isVertexCover_without ⟨nodup, nodes, isIndependent_iff.mp accepted⟩
  rw [members_maximumIndependent] at answer ⊢
  refine ⟨length_le_without_best nodup nodes cover, fun size differ => ?_⟩
  have first := without_best_precedes nodup nodes cover size differ
  refine ⟨first, places_lt first ?_⟩
  rw [length_places answer.nodup answer.nodes, length_places nodup nodes, size]

end VertexCover.Graph
