import VertexCover.Clique
import VertexCover.Proofs.Search.Ties

/-!
# Cliques and covers of the complement

The nodes outside a vertex cover of the complement are a clique, and the nodes outside a clique are
a vertex cover of the complement. So a smallest cover leaves a largest clique, and the last of the
smallest covers leaves the first of the largest cliques.

* `adj_complement`: two nodes are joined in the complement if they are different and not joined;
* `isClique_without`, `IsClique.isVertexCover_without`: the two directions of the duality;
* `complement_congr`: loops do not show in the complement;
* `maximumClique_first`: what the search for a largest clique returns;
* `cliqueAtLeast_contract`: what the search for a clique of a wanted size returns.
-/

namespace VertexCover

/-- There are integers and texts among the labels. -/
def Label.Mixed (labels : List Label) : Prop :=
  (∃ n, .int n ∈ labels) ∧ ∃ s, .text s ∈ labels

theorem Label.comparable_eq_false_iff {labels : List Label} :
    comparable labels = false ↔ Mixed labels := by
  simp only [comparable, Bool.or_eq_false_iff, List.all_eq_false, Mixed]
  constructor
  · rintro ⟨⟨a, ha, text⟩, b, hb, number⟩
    refine ⟨?_, ?_⟩
    · cases b with
      | int n => exact ⟨n, hb⟩
      | text s => simp [isInt] at number
    · cases a with
      | int n => simp [isInt] at text
      | text s => exact ⟨s, ha⟩
  · rintro ⟨⟨n, hn⟩, s, hs⟩
    exact ⟨⟨_, hs, by simp [isInt]⟩, _, hn, by simp [isInt]⟩

namespace Graph
open Search

variable {g h : Graph} {u v : Label} {members : List Label}

/-- A set of nodes any two of which are adjacent. -/
structure IsClique (g : Graph) (members : List Label) : Prop where
  nodup : members.Nodup
  nodes : ∀ v ∈ members, v ∈ g.nodes
  adjacent : ∀ u ∈ members, ∀ v ∈ members, u ≠ v → g.Adj u v

/-! ## The complement -/

theorem mem_nonEdges {nodes : List Label} (nodup : nodes.Nodup) :
    (u, v) ∈ g.nonEdges nodes ∨ (v, u) ∈ g.nonEdges nodes ↔
      u ∈ nodes ∧ v ∈ nodes ∧ u ≠ v ∧ ¬ g.Adj u v := by
  induction nodes with
  | nil => simp [nonEdges]
  | cons w rest ih =>
    obtain ⟨fresh, nodup⟩ := List.nodup_cons.mp nodup
    have listed {a b : Label} : (a, b) ∈ g.nonEdges (w :: rest) ↔
        (a = w ∧ b ∈ rest ∧ ¬ g.Adj a b) ∨ (a, b) ∈ g.nonEdges rest := by
      simp only [nonEdges, List.mem_append, List.mem_map, List.mem_filter, Bool.not_eq_true',
        Prod.mk.injEq, List.contains_eq_mem, decide_eq_false_iff_not, mem_neighbours]
      grind
    have swap : g.Adj v u ↔ g.Adj u v := adj_comm
    have below := ih nodup
    rw [listed, listed, List.mem_cons, List.mem_cons]
    grind

/-- Two nodes are joined in the complement exactly if they are different and not joined. -/
theorem adj_complement :
    g.complement.Adj u v ↔ u ∈ g.nodes ∧ v ∈ g.nodes ∧ u ≠ v ∧ ¬ g.Adj u v := by
  rw [adj_iff]
  exact mem_nonEdges g.nodup

theorem nonEdges_congr (same : ∀ u v, u ≠ v → (h.Adj u v ↔ g.Adj u v)) {nodes : List Label}
    (nodup : nodes.Nodup) : h.nonEdges nodes = g.nonEdges nodes := by
  induction nodes with
  | nil => rfl
  | cons w rest ih =>
    obtain ⟨fresh, nodup⟩ := List.nodup_cons.mp nodup
    have row : (rest.filter fun v => !(h.neighbours w).contains v) =
        rest.filter fun v => !(g.neighbours w).contains v := by
      apply List.filter_congr
      intro v hv
      have other : w ≠ v := fun equal => fresh (equal ▸ hv)
      rw [Bool.not_inj_iff, Bool.eq_iff_iff, List.contains_iff_mem, List.contains_iff_mem,
        mem_neighbours, mem_neighbours]
      exact same w v other
    simp only [nonEdges, row, ih nodup]

/-- Graphs that differ in their loops have the same complement. -/
theorem complement_congr (nodes : h.nodes = g.nodes)
    (same : ∀ u v, u ≠ v → (h.Adj u v ↔ g.Adj u v)) : h.complement = g.complement := by
  have edges : h.nonEdges g.nodes = g.nonEdges g.nodes := nonEdges_congr same g.nodup
  unfold complement ofUpper
  simp only [nodes, edges]

/-! ## Duality -/

/-- The nodes outside a vertex cover of the complement are a clique. -/
theorem isClique_without (cover : g.complement.IsVertexCover members) :
    g.IsClique (g.without members) where
  nodup := g.without_nodup members
  nodes := fun _ hv => (mem_without.mp hv).1
  adjacent := by
    intro u hu v hv different
    obtain ⟨node_u, out_u⟩ := mem_without.mp hu
    obtain ⟨node_v, out_v⟩ := mem_without.mp hv
    by_contra apart
    rcases cover.meets u v (adj_complement.mpr ⟨node_u, node_v, different, apart⟩) with
      inside | inside
    · exact out_u inside
    · exact out_v inside

/-- The nodes outside a clique are a vertex cover of the complement. -/
theorem IsClique.isVertexCover_without (clique : g.IsClique members) :
    g.complement.IsVertexCover (g.without members) where
  nodup := g.without_nodup members
  nodes := fun _ hv => (mem_without.mp hv).1
  meets := by
    intro u v adj
    obtain ⟨node_u, node_v, different, apart⟩ := adj_complement.mp adj
    by_contra outside
    rw [not_or, mem_without, mem_without, not_and, not_and, not_not, not_not] at outside
    exact apart (clique.adjacent u (outside.1 node_u) v (outside.2 node_v) different)

theorem IsClique.length_without (clique : g.IsClique members) :
    (g.without members).length + members.length = g.order :=
  Graph.length_without clique.nodup clique.nodes

/-! ## The largest clique -/

/-- The smallest cover of the complement that the search finds. -/
def complementCover (g : Graph) : List Label :=
  g.complement.select (g.complement.explore true none).best

theorem members_maximumClique (g : Graph) : g.maximumClique.members = g.without g.complementCover :=
  congrArg g.without (g.complement.members_minimumCover true)

theorem complementCover_isVertexCover (g : Graph) : g.complement.IsVertexCover g.complementCover :=
  g.complement.isMinimumCover_select_best.toIsVertexCover

theorem complementCover_least (cover : g.complement.IsVertexCover members) :
    g.complementCover.length ≤ members.length :=
  g.complement.isMinimumCover_select_best.least _ cover

theorem length_complementCover (g : Graph) :
    (g.without g.complementCover).length + g.complementCover.length = g.order :=
  Graph.length_without g.complementCover_isVertexCover.nodup g.complementCover_isVertexCover.nodes

theorem IsClique.length_le (clique : g.IsClique members) :
    members.length ≤ (g.without g.complementCover).length :=
  length_le_without_best (g := g.complement) clique.nodup clique.nodes clique.isVertexCover_without

/-- The last of the smallest covers of the complement leaves the first of the largest cliques. -/
theorem IsClique.precedes (clique : g.IsClique members)
    (size : members.length = (g.without g.complementCover).length)
    (differ : ∃ v, ¬ (v ∈ members ↔ v ∈ g.without g.complementCover)) :
    g.Precedes (g.without g.complementCover) members :=
  without_best_precedes (g := g.complement) clique.nodup clique.nodes
    clique.isVertexCover_without size differ

theorem maximumClique?_eq_ok (plain : Label.comparable g.maximumClique.members = true) :
    g.maximumClique? = .ok g.maximumClique.members := if_pos plain

/-- A clique can be listed unless it mixes the two kinds of labels. -/
theorem maximumClique?_eq_error_iff {fault : Fault} : g.maximumClique? = .error fault ↔
    fault = .mixedLabels ∧ Label.Mixed g.maximumClique.members := by
  rw [← Label.comparable_eq_false_iff]
  constructor
  · intro failed
    cases plain : Label.comparable g.maximumClique.members with
    | true => cases (maximumClique?_eq_ok plain).symm.trans failed
    | false =>
      rw [maximumClique?, Found.listed?, if_neg (Bool.eq_false_iff.mp plain)] at failed
      cases failed
      exact ⟨rfl, rfl⟩
  · rintro ⟨rfl, mixed⟩
    exact if_neg (Bool.eq_false_iff.mp mixed)

/-- The commands list the largest clique in the same way. -/
theorem result_maximumCliqueLogged (g : Graph) (seconds : Double) :
    (g.maximumCliqueLogged seconds).result = g.maximumClique? := rfl

/-- **The largest clique.** The nodes outside the cover found in the complement are a clique, no
clique has more nodes, and with a smallest vertex cover of the complement they make up all nodes. Of
the cliques of its size this one is the first in the order of insertion: the first node on which it
differs from another is its own. Graphs that differ in their loops have the same answer. Listing it
fails exactly if there are both integers and texts in it. -/
theorem maximumClique_first (g : Graph) :
    g.maximumClique.members = g.without (g.complement.minimumCover true).members ∧
    g.IsClique g.maximumClique.members ∧
    (∀ others, g.IsClique others → others.length ≤ g.maximumClique.members.length) ∧
    (∀ least, g.complement.IsMinimumCover least →
      g.maximumClique.members.length + least.length = g.order) ∧
    (∀ others, g.IsClique others → others.length = g.maximumClique.members.length →
      (∃ v, ¬ (v ∈ others ↔ v ∈ g.maximumClique.members)) →
      g.Precedes g.maximumClique.members others ∧
        g.places g.maximumClique.members < g.places others) ∧
    (∀ h : Graph, h.nodes = g.nodes → (∀ u v, u ≠ v → (h.Adj u v ↔ g.Adj u v)) →
      h.maximumClique.members = g.maximumClique.members) ∧
    (∀ fault, g.maximumClique? = .error fault ↔
      fault = .mixedLabels ∧ Label.Mixed g.maximumClique.members) ∧
    (¬ Label.Mixed g.maximumClique.members → g.maximumClique? = .ok g.maximumClique.members) := by
  have clique : g.IsClique (g.without g.complementCover) :=
    isClique_without g.complementCover_isVertexCover
  refine ⟨rfl, ?_, ?_, ?_, ?_, ?_, ?_, ?_⟩
  · rw [members_maximumClique]
    exact clique
  · intro others h
    rw [members_maximumClique]
    exact h.length_le
  · intro least h
    have shortest := h.least _ g.complementCover_isVertexCover
    have longest := complementCover_least h.toIsVertexCover
    have total := g.length_complementCover
    rw [members_maximumClique]
    omega
  · intro others h size differ
    rw [members_maximumClique] at size differ ⊢
    have first := h.precedes size differ
    refine ⟨first, places_lt first ?_⟩
    rw [length_places clique.nodup clique.nodes, length_places h.nodup h.nodes, size]
  · intro h nodes same
    rw [maximumClique, maximumClique, complement_congr nodes same]
    simp only [without, nodes]
  · exact fun fault => maximumClique?_eq_error_iff
  · intro plain
    rw [← Label.comparable_eq_false_iff, Bool.not_eq_false] at plain
    exact maximumClique?_eq_ok plain

example : ((empty 1).insertEdge (.int 0) (.text "a")).maximumClique? = .error .mixedLabels := by
  decide

/-! ## Cliques of a wanted size -/

theorem IsClique.sublist {others : List Label} (clique : g.IsClique members)
    (sub : others.Sublist members) : g.IsClique others where
  nodup := clique.nodup.sublist sub
  nodes := fun v hv => clique.nodes v (sub.subset hv)
  adjacent := fun u hu v hv => clique.adjacent u (sub.subset hu) v (sub.subset hv)

theorem isClique_nil (g : Graph) : g.IsClique [] := by
  constructor <;> simp

/-- The clique that the bounded search on the complement leaves. -/
def boundedClique (g : Graph) (k : Int) : List Label :=
  g.without (g.complement.boundedCover (g.order - k)).members

theorem result_cliqueAtLeast (g : Graph) (k : Int) (seconds : Double) :
    (g.cliqueAtLeastLogged k seconds).result =
      if k < 0 then .error (.negativeBound k)
      else if (g.order : Int) < k then .ok []
      else .ok (g.boundedClique k) := by
  unfold cliqueAtLeastLogged cliqueAtLeast boundedClique
  by_cases negative : k < 0
  · simp [negative]
  · by_cases beyond : (g.order : Int) < k <;> simp [negative, beyond]

theorem isClique_boundedClique (g : Graph) (k : Int) : g.IsClique (g.boundedClique k) :=
  isClique_without (g.complement.boundedCover_isVertexCover _)

/-- The search misses no clique of the wanted size: a cover within `order - k` leaves `k` nodes. -/
theorem le_length_boundedClique {k : Int} (clique : g.IsClique members)
    (size : k ≤ members.length) : k ≤ (g.boundedClique k).length := by
  have cover := g.complement.boundedCover_isVertexCover (g.order - k)
  have inside : (g.boundedClique k).length + _ = g.order :=
    Graph.length_without cover.nodup cover.nodes
  have outside := clique.length_without
  rcases boundedCover_small (g.order - k) clique.isVertexCover_without with within | smaller
  · omega
  · omega

/-- Where no clique has more than `k` nodes, the search is not stopped before a smallest cover. -/
theorem boundedClique_eq {k : Int} (most : ∀ others, g.IsClique others → others.length ≤ k) :
    g.boundedClique k = g.without g.complementCover := by
  have least : g.complement.IsMinimumCover g.complementCover :=
    g.complement.isMinimumCover_select_best
  have bound : (g.order : Int) - k ≤ g.complementCover.length := by
    have inside := g.length_complementCover
    have largest := most _ (isClique_without g.complementCover_isVertexCover)
    omega
  have same : (g.complement.boundedCover (g.order - k)).members = g.complementCover :=
    congrArg g.complement.select (best_eq_of_le least bound)
  rw [boundedClique, same]

/-- **Cliques of a wanted size.** The search refuses exactly the negative sizes. For every other size
it returns a clique, which has the wanted size exactly if there is a clique of that size. If no clique
has more than `k` nodes and the graph has at least `k`, the answer is what a smallest cover of the
complement leaves out. -/
theorem cliqueAtLeast_contract (g : Graph) (k : Int) (seconds : Double) :
    (∀ fault, (g.cliqueAtLeastLogged k seconds).result = .error fault ↔
      k < 0 ∧ fault = .negativeBound k) ∧
    (0 ≤ k → ∃ members, (g.cliqueAtLeastLogged k seconds).result = .ok members ∧
      g.IsClique members ∧
      (k ≤ members.length ↔ ∃ others, g.IsClique others ∧ others.length = k) ∧
      ((∀ others, g.IsClique others → others.length ≤ k) → k ≤ g.order →
        ∀ repair, members = g.without (g.complement.minimumCover repair).members)) := by
  rw [result_cliqueAtLeast]
  constructor
  · intro fault
    by_cases negative : k < 0
    · simp [negative, eq_comm]
    · by_cases beyond : (g.order : Int) < k <;> simp [negative, beyond]
  · intro allowed
    rw [if_neg (by omega)]
    by_cases beyond : (g.order : Int) < k
    · refine ⟨[], if_pos beyond, g.isClique_nil, ?_, fun _ within => by omega⟩
      constructor
      · intro size
        simp only [List.length_nil] at size
        omega
      · rintro ⟨others, clique, size⟩
        have outside := clique.length_without
        omega
    · refine ⟨g.boundedClique k, if_neg beyond, g.isClique_boundedClique k, ?_, ?_⟩
      · constructor
        · intro size
          refine ⟨(g.boundedClique k).take k.toNat,
            (g.isClique_boundedClique k).sublist (List.take_sublist _ _), ?_⟩
          rw [List.length_take]
          omega
        · rintro ⟨others, clique, size⟩
          exact le_length_boundedClique clique (by omega)
      · intro most _ repair
        rw [boundedClique_eq most, members_minimumCover]
        rfl

end Graph

end VertexCover
