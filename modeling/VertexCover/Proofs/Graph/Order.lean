import VertexCover.Proofs.Cover

/-!
# Node sets in order

Sets of nodes are compared in the order in which the nodes were inserted:

* `Precedes`: the first node on which two sets differ belongs to the first of them;
* `places_lt`: for sets of one size that is the lexicographic order of their positions;
* `Precedes.without`: the sets of the nodes that are left out stand in the opposite order.
-/

namespace VertexCover.Graph

variable {g : Graph} {a b c : List Label} {v : Label}

/-- The positions of the nodes among the given labels, ascending. -/
def places (g : Graph) (members : List Label) : List Nat :=
  (g.nodes.zipIdx.filter fun (v, _) => members.contains v).map Prod.snd

/-- The first node on which the two sets differ belongs to the first of them. -/
def Precedes (g : Graph) (a b : List Label) : Prop :=
  ∃ before v after, g.nodes = before ++ v :: after ∧ (∀ u ∈ before, u ∈ a ↔ u ∈ b) ∧
    v ∈ a ∧ v ∉ b

theorem length_filter_members (nodup : a.Nodup) (nodes : ∀ v ∈ a, v ∈ g.nodes) :
    (g.nodes.filter (a.contains ·)).length = a.length := by
  rw [← count_vector nodup nodes, ← List.countP_eq_length_filter, Search.count, vector,
    List.countP_map]
  rfl

theorem length_places (nodup : a.Nodup) (nodes : ∀ v ∈ a, v ∈ g.nodes) :
    (g.places a).length = a.length := by
  have listed : g.nodes.zipIdx.map Prod.fst = g.nodes := List.zipIdx_map_fst 0 _
  rw [← length_filter_members nodup nodes, places, List.length_map,
    ← List.countP_eq_length_filter, ← List.countP_eq_length_filter]
  conv_rhs => rw [← listed, List.countP_map]
  rfl

/-- Of two sets of one size, the one that has the first node on which they differ comes first in
the lexicographic order of positions. -/
theorem places_lt (h : g.Precedes a b) (size : (g.places a).length = (g.places b).length) :
    g.places a < g.places b := by
  obtain ⟨before, v, after, split, same, ha, hb⟩ := h
  have head : (before.zipIdx.filter fun e => a.contains e.1) =
      before.zipIdx.filter fun e => b.contains e.1 := by
    apply List.filter_congr
    intro e he
    rw [Bool.eq_iff_iff, List.contains_iff_mem, List.contains_iff_mem]
    exact same e.1 (List.fst_mem_of_mem_zipIdx he)
  simp only [places, split, List.zipIdx_append, List.zipIdx_cons, List.filter_append,
    List.filter_cons, List.contains_iff_mem, ha, hb, ↓reduceIte, head, List.map_append,
    List.map_cons, List.length_append, List.length_cons, Nat.zero_add] at size ⊢
  apply List.append_left_lt
  -- The second set has as many nodes, so it goes on, and with a later node.
  cases tail : ((after.zipIdx (before.length + 1)).filter fun e => b.contains e.1) with
  | nil =>
    simp only [tail, List.map_nil, List.length_nil] at size
    omega
  | cons e rest =>
    have listed : e ∈ after.zipIdx (before.length + 1) := by
      have : e ∈ (after.zipIdx (before.length + 1)).filter fun e => b.contains e.1 := by
        rw [tail]; exact List.mem_cons_self
      exact (List.mem_filter.mp this).1
    exact List.cons_lt_cons_iff.mpr (.inl (List.le_snd_of_mem_zipIdx listed))

theorem Precedes.congr (h : g.Precedes a b) (same : ∀ v ∈ g.nodes, v ∈ b ↔ v ∈ c) :
    g.Precedes a c := by
  obtain ⟨before, v, after, split, agree, ha, hb⟩ := h
  refine ⟨before, v, after, split, fun u hu => ?_, ha, ?_⟩
  · rw [agree u hu, same u (by simp [split, hu])]
  · rwa [← same v (by simp [split])]

/-! ## The nodes that are left out -/

theorem mem_without : v ∈ g.without a ↔ v ∈ g.nodes ∧ v ∉ a := by
  simp [without]

theorem mem_without_without (hv : v ∈ g.nodes) : v ∈ g.without (g.without a) ↔ v ∈ a := by
  simp [mem_without, hv]

theorem without_nodup (g : Graph) (a : List Label) : (g.without a).Nodup := g.nodup.filter _

theorem length_without (nodup : a.Nodup) (nodes : ∀ v ∈ a, v ∈ g.nodes) :
    (g.without a).length + a.length = g.order := by
  have split : g.order = (g.nodes.filter (a.contains ·)).length + (g.without a).length :=
    List.length_eq_length_filter_add _
  rw [length_filter_members nodup nodes] at split
  omega

theorem Precedes.without (h : g.Precedes a b) : g.Precedes (g.without b) (g.without a) := by
  obtain ⟨before, v, after, split, same, ha, hb⟩ := h
  refine ⟨before, v, after, split, ?_, ?_, ?_⟩
  · intro u hu
    rw [mem_without, mem_without, same u hu]
  · exact mem_without.mpr ⟨by simp [split], hb⟩
  · exact fun out => (mem_without.mp out).2 ha

end VertexCover.Graph
