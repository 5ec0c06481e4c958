import Mathlib.Data.List.Perm.Subperm
import VertexCover.Search.Solve

/-!
# Vertex covers as sets of nodes and as flags

The answers of the library are lists of nodes; the searches work on flags by position. This file
says what a vertex cover is in either form and carries one form to the other:

* `IsVertexCover`: a set of nodes, listed once each, that meets every edge; `IsMinimumCover`: one
  with the fewest nodes;
* `Search.Covers`: the same for flags, on the lists of neighbours by position;
* `mem_positions`: position `j` is listed at `i` exactly if the nodes there are adjacent;
* `isVertexCover_select`, `covers_vector`: covers correspond, with their sizes.
-/

namespace VertexCover

namespace Search

/-- The flag of a vertex; past the end of the list it is not set. -/
def flag (flags : List Bool) (v : Nat) : Bool := flags[v]?.getD false

/-- The neighbours of a vertex; a vertex past the end has none. -/
def around (adjacency : List (List Nat)) (v : Nat) : List Nat := adjacency[v]?.getD []

/-- Every edge has an end whose flag is set. -/
def Covers (adjacency : List (List Nat)) (flags : List Bool) : Prop :=
  ∀ v, ∀ u ∈ around adjacency v, flag flags v = true ∨ flag flags u = true

/-- Every edge is listed at both of its ends. -/
def Undirected (adjacency : List (List Nat)) : Prop :=
  ∀ v, ∀ u ∈ around adjacency v, v ∈ around adjacency u

theorem flag_iff {flags : List Bool} {v : Nat} : flag flags v = true ↔ flags[v]? = some true := by
  unfold flag
  cases flags[v]? <;> simp

theorem lt_length_of_flag {flags : List Bool} {v : Nat} (h : flag flags v = true) :
    v < flags.length := by
  obtain ⟨inside, _⟩ := List.getElem?_eq_some_iff.mp (flag_iff.mp h)
  exact inside

/-- Clearing a flag changes no other one, whether or not the vertex is in the list. -/
theorem flag_set_false (flags : List Bool) (v u : Nat) :
    flag (flags.set v false) u = (flag flags u && u != v) := by
  by_cases same : v = u
  · subst same
    cases h : flags[v]? <;> simp [flag, List.getElem?_set_self', h]
  · have other : u ≠ v := fun h => same h.symm
    simp [flag, List.getElem?_set_ne same, other]

theorem set_true_of_flag {flags : List Bool} {v : Nat} (h : flag flags v = true) :
    flags.set v true = flags := by
  obtain ⟨inside, value⟩ := List.getElem?_eq_some_iff.mp (flag_iff.mp h)
  rw [← value]
  exact List.set_getElem_self inside

theorem count_set_false {flags : List Bool} {v : Nat} (h : flag flags v = true) :
    count (flags.set v false) + 1 = count flags := by
  obtain ⟨inside, value⟩ := List.getElem?_eq_some_iff.mp (flag_iff.mp h)
  have positive : 0 < count flags :=
    List.countP_pos_iff.mpr ⟨true, value ▸ List.getElem_mem inside, rfl⟩
  unfold count at positive ⊢
  rw [List.countP_set inside, value]
  simp only [id, Bool.false_eq_true, ↓reduceIte]
  omega

/-- The number of flags that are set, counted by position. -/
theorem count_eq (flags : List Bool) :
    count flags = ((List.range flags.length).filter (flag flags)).length := by
  have listed : flags = (List.range flags.length).map (flag flags) := by
    apply List.ext_getElem (by simp)
    intro i inside _
    simp [flag, List.getElem?_eq_getElem inside]
  rw [← List.countP_eq_length_filter]
  conv_lhs => rw [listed]
  rw [count, List.countP_map]
  rfl

/-- Different vertices whose flags are set are at most as many as the flags. -/
theorem length_le_count {flags : List Bool} {vs : List Nat} (nodup : vs.Nodup)
    (set : ∀ v ∈ vs, flag flags v = true) : vs.length ≤ count flags := by
  rw [count_eq]
  apply (List.subperm_of_subset nodup _).length_le
  intro v hv
  have := set v hv
  simp [this, lt_length_of_flag this]

theorem exposes_eq_false_iff {adjacency : List (List Nat)} {cover : List Bool} {v : Nat} :
    exposes adjacency cover v = false ↔
      ∀ u ∈ around adjacency v, u ≠ v ∧ flag cover u = true := by
  simp only [exposes, List.any_eq_false, around, flag]
  simp

/-- The neighbours of a vertex that a cover leaves out are in it. -/
theorem Covers.flag_of_out {adjacency : List (List Nat)} {cover : List Bool} {v u : Nat}
    (h : Covers adjacency cover) (out : flag cover v = false) (hu : u ∈ around adjacency v) :
    flag cover u = true := (h v u hu).resolve_left (by simp [out])

/-- A vertex none of whose edges would be left uncovered can be taken out of a cover. -/
theorem Covers.set_false {adjacency : List (List Nat)} {cover : List Bool} {v : Nat}
    (both : Undirected adjacency) (h : Covers adjacency cover)
    (free : exposes adjacency cover v = false) : Covers adjacency (cover.set v false) := by
  intro a b hb
  have kept := exposes_eq_false_iff.mp free
  simp only [flag_set_false, Bool.and_eq_true, bne_iff_ne]
  by_cases ha : a = v
  · subst ha
    obtain ⟨other, covered⟩ := kept b hb
    exact .inr ⟨covered, other⟩
  · by_cases hv : b = v
    · subst hv
      exact .inl ⟨(kept a (both a b hb)).2, ha⟩
    · exact (h a b hb).imp (⟨·, ha⟩) (⟨·, hv⟩)

end Search

namespace Graph
open Search

variable {g : Graph}

/-- A set of nodes that meets every edge; a loop is met by its own node only. -/
structure IsVertexCover (g : Graph) (members : List Label) : Prop where
  nodup : members.Nodup
  nodes : ∀ v ∈ members, v ∈ g.nodes
  meets : ∀ u v, g.Adj u v → u ∈ members ∨ v ∈ members

/-- A vertex cover with the fewest nodes. -/
structure IsMinimumCover (g : Graph) (members : List Label) : Prop
    extends g.IsVertexCover members where
  least : ∀ others, g.IsVertexCover others → members.length ≤ others.length

/-- Some vertex cover has at most `k` nodes. -/
def HasCoverAtMost (g : Graph) (k : Int) : Prop :=
  ∃ members, g.IsVertexCover members ∧ (members.length : Int) ≤ k

theorem mem_neighbours {u v : Label} : u ∈ g.neighbours v ↔ g.Adj v u := by
  rw [adj_iff, neighbours, List.mem_filterMap]
  constructor
  · rintro ⟨⟨a, b⟩, he, found⟩
    by_cases ha : a = v
    · simp only [ha, ↓reduceIte, Option.some.injEq] at found
      exact .inl (ha ▸ found ▸ he)
    · simp only [ha, ↓reduceIte, Option.ite_none_right_eq_some, Option.some.injEq] at found
      exact .inr (found.1 ▸ found.2 ▸ he)
  · rintro (he | he)
    · exact ⟨_, he, by simp⟩
    · refine ⟨_, he, ?_⟩
      by_cases same : u = v <;> simp [same]

theorem mem_adjacent {u v : Label} : u ∈ g.adjacent v ↔ g.Adj v u := by
  simp only [adjacent, List.mem_filter, List.contains_iff_mem, mem_neighbours]
  exact ⟨And.right, fun adj => ⟨adj.right_mem, adj⟩⟩

theorem place_unique {v : Label} {i j : Nat} (hi : g.nodes[i]? = some v)
    (hj : g.nodes[j]? = some v) : i = j := by
  obtain ⟨inside, _⟩ := List.getElem?_eq_some_iff.mp hi
  exact (List.getElem?_inj inside g.nodup).mp (hi.trans hj.symm)

theorem length_positions (g : Graph) : g.positions.length = g.order := by
  simp [positions, order]

/-- A position is listed at another one exactly if the nodes there are adjacent. -/
theorem mem_positions {i j : Nat} :
    j ∈ around g.positions i ↔ ∃ v u, g.nodes[i]? = some v ∧ g.nodes[j]? = some u ∧ g.Adj v u := by
  unfold around positions
  rw [List.getElem?_map]
  cases hv : g.nodes[i]? with
  | none => simp
  | some v =>
    simp only [Option.map_some, Option.getD_some, List.mem_map, List.mem_filter,
      List.mem_zipIdx_iff_getElem?, List.contains_iff_mem, mem_neighbours]
    constructor
    · rintro ⟨⟨u, k⟩, ⟨hu, adj⟩, rfl⟩
      exact ⟨v, u, rfl, hu, adj⟩
    · rintro ⟨w, u, same, hu, adj⟩
      exact ⟨(u, j), ⟨hu, Option.some.inj same ▸ adj⟩, rfl⟩

theorem mem_positions_of_getElem? {v u : Label} {i j : Nat} (hv : g.nodes[i]? = some v)
    (hu : g.nodes[j]? = some u) : j ∈ around g.positions i ↔ g.Adj v u := by
  simp [mem_positions, hv, hu]

/-- The neighbours of a node are listed in ascending order. -/
theorem pairwise_around (g : Graph) (i : Nat) : (around g.positions i).Pairwise (· < ·) := by
  unfold around positions
  rw [List.getElem?_map]
  cases g.nodes[i]? with
  | none => exact .nil
  | some v =>
    have all : g.nodes.zipIdx.map Prod.snd = List.range g.nodes.length := by
      rw [List.zipIdx_map_snd, List.range_eq_range']
    have ascending : (g.nodes.zipIdx.map Prod.snd).Pairwise (· < ·) := all ▸ List.pairwise_lt_range
    exact ascending.sublist (List.filter_sublist.map _)

theorem undirected_positions (g : Graph) : Undirected g.positions := by
  intro i j h
  obtain ⟨v, u, hv, hu, adj⟩ := mem_positions.mp h
  exact mem_positions.mpr ⟨u, v, hu, hv, adj.symm⟩

theorem mem_select {flags : List Bool} {v : Label} :
    v ∈ g.select flags ↔ ∃ i, g.nodes[i]? = some v ∧ flag flags i = true := by
  unfold select
  simp only [List.mem_map, List.mem_filter, flag_iff]
  constructor
  · rintro ⟨⟨u, b⟩, ⟨hu, set⟩, rfl⟩
    obtain ⟨i, hi⟩ := List.mem_iff_getElem?.mp hu
    obtain ⟨node, value⟩ := List.getElem?_zip_eq_some.mp hi
    exact ⟨i, node, by simp_all⟩
  · rintro ⟨i, node, value⟩
    refine ⟨(v, true), ⟨?_, rfl⟩, rfl⟩
    exact List.mem_of_getElem? (List.getElem?_zip_eq_some.mpr ⟨node, value⟩)

/-- The flag of a node decides whether the node is selected. -/
theorem mem_select_of_getElem? {flags : List Bool} {v : Label} {i : Nat}
    (hi : g.nodes[i]? = some v) : v ∈ g.select flags ↔ flag flags i = true := by
  rw [mem_select]
  constructor
  · rintro ⟨j, hj, set⟩
    exact place_unique hi hj ▸ set
  · exact fun set => ⟨i, hi, set⟩

theorem select_sublist (g : Graph) (flags : List Bool) : (g.select flags).Sublist g.nodes := by
  unfold select
  generalize g.nodes = nodes
  induction nodes generalizing flags with
  | nil => exact .slnil
  | cons v rest ih =>
    cases flags with
    | nil => exact List.nil_sublist _
    | cons b flags =>
      cases b
      · exact (ih flags).cons v
      · exact (ih flags).cons_cons v

theorem length_select {flags : List Bool} (h : flags.length = g.order) :
    (g.select flags).length = count flags := by
  have flagged : (g.nodes.zip flags).map Prod.snd = flags :=
    List.map_snd_zip (by rw [h]; exact Nat.le_refl _)
  rw [select, List.length_map, ← List.countP_eq_length_filter, count]
  conv_rhs => rw [← flagged, List.countP_map]
  rfl

/-- Flags that cover the positions select a vertex cover. -/
theorem isVertexCover_select {flags : List Bool} (h : Covers g.positions flags) :
    g.IsVertexCover (g.select flags) where
  nodup := g.nodup.sublist (g.select_sublist flags)
  nodes := fun _ hv => (g.select_sublist flags).subset hv
  meets := by
    intro u v adj
    obtain ⟨i, hi⟩ := List.mem_iff_getElem?.mp adj.left_mem
    obtain ⟨j, hj⟩ := List.mem_iff_getElem?.mp adj.right_mem
    have met := h i j (mem_positions.mpr ⟨u, v, hi, hj, adj⟩)
    rwa [mem_select_of_getElem? hi, mem_select_of_getElem? hj]

theorem flag_vector {members : List Label} {v : Label} {i : Nat} (hi : g.nodes[i]? = some v) :
    flag (g.vector members) i = true ↔ v ∈ members := by
  simp [flag, vector, hi]

/-- The flags of a vertex cover cover the positions. -/
theorem covers_vector {members : List Label} (h : g.IsVertexCover members) :
    Covers g.positions (g.vector members) := by
  intro i j hj
  obtain ⟨v, u, hv, hu, adj⟩ := mem_positions.mp hj
  rw [flag_vector hv, flag_vector hu]
  exact h.meets v u adj

theorem count_vector {members : List Label} (nodup : members.Nodup)
    (nodes : ∀ v ∈ members, v ∈ g.nodes) : count (g.vector members) = members.length := by
  have same : (g.nodes.filter (members.contains ·)).Perm members := by
    apply (List.perm_ext_iff_of_nodup (g.nodup.filter _) nodup).mpr
    intro v
    simp only [List.mem_filter, List.contains_iff_mem]
    exact ⟨And.right, fun hv => ⟨nodes v hv, hv⟩⟩
  rw [← same.length_eq, count, vector, List.countP_map, ← List.countP_eq_length_filter]
  rfl

end Graph

end VertexCover
