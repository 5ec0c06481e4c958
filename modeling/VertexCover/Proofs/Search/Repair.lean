import Mathlib.Data.List.Sort
import VertexCover.Proofs.Cover

/-!
# What the repair pass leaves

The pass goes through the vertices in ascending order and judges each against the flags as earlier
removals left them. A vertex is dropped if it hangs on a member, that is if its only edge leads to
another vertex whose flag is still set.

* `HangsOn`, `Graph.Pendant`: the only edge at a vertex leads to another one, by position and by
  label;
* `dropPendant_cases`: what one step does;
* `Pruned`: the invariant of the pass, with `Pruned.step` and `foldl_pruned`;
* `repair_of_apart`: flags with nothing to drop are left as they are, so a second pass changes
  nothing;
* `dropRedundant_sound`: what follows for a set of labels.
-/

namespace VertexCover

namespace Search

variable {adjacency : List (List Nat)} {flags left : List Bool} {v u k : Nat}

/-- The only edge at the first vertex leads to the second one, which is another vertex. -/
def HangsOn (adjacency : List (List Nat)) (v u : Nat) : Prop :=
  around adjacency v = [u] ∧ u ≠ v

/-- No member hangs on another one. -/
def Apart (adjacency : List (List Nat)) (flags : List Bool) : Prop :=
  ∀ v u, HangsOn adjacency v u → flag flags v = true → flag flags u = false

theorem HangsOn.exposes (h : HangsOn adjacency v u) (member : flag flags u = true) :
    exposes adjacency flags v = false := by
  apply exposes_eq_false_iff.mpr
  intro w hw
  have same : w = u := by simpa [h.1] using hw
  exact same ▸ ⟨h.2, member⟩

/-! ## One step -/

/-- A step drops its vertex if that hangs on a member, and else changes nothing. -/
theorem dropPendant_cases (adjacency : List (List Nat)) (flags : List Bool) (v : Nat) :
    (∃ u, HangsOn adjacency v u ∧ flag flags v = true ∧ flag flags u = true ∧
      dropPendant adjacency flags v = flags.set v false) ∨
    (dropPendant adjacency flags v = flags ∧
      ∀ u, HangsOn adjacency v u → flag flags v = true → flag flags u = false) := by
  unfold dropPendant
  split
  · rename_i u only
    have only : around adjacency v = [u] := only
    split
    · rename_i drop
      simp only [Bool.and_eq_true, bne_iff_ne] at drop
      obtain ⟨⟨member, other⟩, covered⟩ := drop
      exact .inl ⟨u, ⟨only, other⟩, member, covered, rfl⟩
    · rename_i keep
      refine .inr ⟨rfl, fun w h member => ?_⟩
      have same : w = u := by simpa [only, eq_comm] using h.1
      subst same
      apply Bool.eq_false_iff.mpr
      intro covered
      apply keep
      simp only [Bool.and_eq_true, bne_iff_ne]
      exact ⟨⟨member, h.2⟩, covered⟩
  · rename_i many
    exact .inr ⟨rfl, fun w h => absurd h.1 (many w)⟩

theorem repair_of_apart (apart : Apart adjacency flags) : repair adjacency flags = flags := by
  have step (v : Nat) : dropPendant adjacency flags v = flags := by
    rcases dropPendant_cases adjacency flags v with ⟨u, hangs, member, covered, _⟩ | ⟨same, _⟩
    · rw [apart v u hangs member] at covered
      cases covered
    · exact same
  unfold repair
  generalize List.range flags.length = vs
  induction vs with
  | nil => rfl
  | cons v vs ih => rw [List.foldl_cons, step, ih]

/-! ## The pass -/

/-- The flags left when the vertices below `k` have been judged: a vertex that was dropped hangs on
one that is left, and none of those that were judged is left together with the vertex it hangs
on. -/
structure Pruned (adjacency : List (List Nat)) (flags : List Bool) (k : Nat) (left : List Bool) :
    Prop where
  length : left.length = flags.length
  members : ∀ v, flag left v = true → flag flags v = true
  dropped : ∀ v, flag flags v = true → flag left v = false →
    ∃ u, HangsOn adjacency v u ∧ flag left u = true
  apart : ∀ v < k, ∀ u, HangsOn adjacency v u → flag left v = true → flag left u = false

theorem pruned_start (adjacency : List (List Nat)) (flags : List Bool) :
    Pruned adjacency flags 0 flags where
  length := rfl
  members := fun _ => id
  dropped := by
    intro v member out
    rw [member] at out
    cases out
  apart := by
    intro v hv
    omega

theorem Pruned.step (both : Undirected adjacency) (h : Pruned adjacency flags k left) :
    Pruned adjacency flags (k + 1) (dropPendant adjacency left k) := by
  rcases dropPendant_cases adjacency left k with ⟨u, hangs, member, covered, drop⟩ | ⟨same, none⟩
  · rw [drop]
    have fewer {w : Nat} (hw : flag (left.set k false) w = true) : flag left w = true ∧ w ≠ k := by
      simpa [flag_set_false] using hw
    refine ⟨List.length_set.trans h.length, fun w hw => h.members w (fewer hw).1, ?_, ?_⟩
    · intro w hw out
      by_cases here : w = k
      · subst here
        exact ⟨u, hangs, by simp [flag_set_false, covered, hangs.2]⟩
      · have earlier : flag left w = false := by simpa [flag_set_false, here] using out
        obtain ⟨x, hx, stays⟩ := h.dropped w hw earlier
        refine ⟨x, hx, ?_⟩
        -- The vertex that is dropped now has one neighbour, and that one is left.
        have other : x ≠ k := by
          rintro rfl
          have back : w ∈ around adjacency x := both w x (by simp [hx.1])
          have same : w = u := by simpa [hangs.1] using back
          rw [same, covered] at earlier
          cases earlier
        simp [flag_set_false, stays, other]
    · intro w hw x hx member
      have below : w < k := by
        have := (fewer member).2
        omega
      have out := h.apart w below x hx (fewer member).1
      simp [flag_set_false, out]
  · rw [same]
    refine ⟨h.length, h.members, h.dropped, fun w hw x hx member => ?_⟩
    by_cases here : w = k
    · subst here
      exact none x hx member
    · exact h.apart w (by omega) x hx member

theorem foldl_pruned (both : Undirected adjacency) (flags : List Bool) (k : Nat) :
    Pruned adjacency flags k ((List.range k).foldl (dropPendant adjacency) flags) := by
  induction k with
  | zero => exact pruned_start adjacency flags
  | succ k ih =>
    rw [List.range_succ, List.foldl_append]
    exact ih.step both

theorem repair_pruned (both : Undirected adjacency) (flags : List Bool) :
    Pruned adjacency flags flags.length (repair adjacency flags) :=
  foldl_pruned both flags flags.length

theorem repair_apart (both : Undirected adjacency) (flags : List Bool) :
    Apart adjacency (repair adjacency flags) := by
  have pruned := repair_pruned both flags
  intro v u hangs member
  exact pruned.apart v (lt_length_of_flag (pruned.members v member)) u hangs member

/-- A second pass changes nothing. -/
theorem repair_repair (both : Undirected adjacency) (flags : List Bool) :
    repair adjacency (repair adjacency flags) = repair adjacency flags :=
  repair_of_apart (repair_apart both flags)

/-- The repair pass changes no cover with the fewest vertices. -/
theorem repair_eq_self (both : Undirected adjacency) (h : Covers adjacency flags)
    (least : ∀ others : List Bool, others.length = flags.length → Covers adjacency others →
      count flags ≤ count others) : repair adjacency flags = flags := by
  apply repair_of_apart
  intro v u hangs member
  apply Bool.eq_false_iff.mpr
  intro covered
  have fewer := count_set_false member
  have := least (flags.set v false) List.length_set (h.set_false both (hangs.exposes covered))
  omega

end Search

namespace Graph
open Search

variable {g : Graph} {members : List Label} {flags : List Bool} {u v : Label} {i j : Nat}

/-- The only edge at the first label leads to the second one, which is another label. -/
def Pendant (g : Graph) (v u : Label) : Prop := u ≠ v ∧ ∀ w, g.Adj v w ↔ w = u

theorem pendant_iff (hv : g.nodes[i]? = some v) (hu : g.nodes[j]? = some u) :
    g.Pendant v u ↔ HangsOn g.positions i j := by
  constructor
  · rintro ⟨other, only⟩
    constructor
    · apply (g.pairwise_around i).eq_of_mem_iff (List.pairwise_singleton _ j)
      intro k
      rw [List.mem_singleton]
      constructor
      · intro hk
        obtain ⟨_, w, _, hw, _⟩ := mem_positions.mp hk
        have adj := (mem_positions_of_getElem? hv hw).mp hk
        exact place_unique hw ((only w).mp adj ▸ hu)
      · rintro rfl
        exact (mem_positions_of_getElem? hv hu).mpr ((only u).mpr rfl)
    · rintro rfl
      exact other (Option.some.inj (hu.symm.trans hv))
  · rintro ⟨only, other⟩
    refine ⟨fun same => other (place_unique hu (same ▸ hv)), fun w => ?_⟩
    constructor
    · intro adj
      obtain ⟨k, hw⟩ := List.mem_iff_getElem?.mp adj.right_mem
      have hk := (mem_positions_of_getElem? hv hw).mpr adj
      rw [only, List.mem_singleton] at hk
      subst hk
      exact Option.some.inj (hw.symm.trans hu)
    · rintro rfl
      apply (mem_positions_of_getElem? hv hu).mp
      rw [only]
      exact List.mem_singleton_self j

theorem vector_select (length : flags.length = g.order) : g.vector (g.select flags) = flags := by
  apply List.ext_getElem
  · rw [vector, List.length_map, length]
    rfl
  · intro i listed inside
    have node : i < g.nodes.length := by simpa [vector] using listed
    have found : g.nodes[i] ∈ g.select flags ↔ flag flags i = true :=
      mem_select_of_getElem? (List.getElem?_eq_getElem node)
    rw [Bool.eq_iff_iff]
    simpa [vector, flag, List.getElem?_eq_getElem inside] using found

theorem length_repair_vector (g : Graph) (members : List Label) :
    (repair g.positions (g.vector members)).length = g.order := by
  rw [(repair_pruned g.undirected_positions _).length, vector, List.length_map]
  rfl

theorem dropRedundant_dropRedundant (g : Graph) (members : List Label) :
    g.dropRedundant (g.dropRedundant members) = g.dropRedundant members := by
  rw [dropRedundant, dropRedundant, vector_select (g.length_repair_vector members),
    repair_repair g.undirected_positions]

/-- Labels that are not nodes play no part. -/
theorem dropRedundant_congr {others : List Label}
    (same : ∀ v ∈ g.nodes, (v ∈ others ↔ v ∈ members)) :
    g.dropRedundant others = g.dropRedundant members := by
  have flags : g.vector others = g.vector members := by
    refine List.map_congr_left fun v node => ?_
    rw [Bool.eq_iff_iff, List.contains_iff_mem, List.contains_iff_mem]
    exact same v node
  rw [dropRedundant, dropRedundant, flags]

theorem mem_of_mem_dropRedundant (h : v ∈ g.dropRedundant members) :
    v ∈ members ∧ v ∈ g.nodes := by
  obtain ⟨i, hi, set⟩ := mem_select.mp h
  have member := (repair_pruned g.undirected_positions (g.vector members)).members i set
  exact ⟨(flag_vector hi).mp member, List.mem_of_getElem? hi⟩

/-- A node that is dropped hangs on a node that is left. -/
theorem pendant_of_dropped (node : v ∈ g.nodes) (member : v ∈ members)
    (out : v ∉ g.dropRedundant members) : ∃ u, g.Pendant v u ∧ u ∈ g.dropRedundant members := by
  obtain ⟨i, hi⟩ := List.mem_iff_getElem?.mp node
  rw [dropRedundant, mem_select_of_getElem? hi] at out
  obtain ⟨j, hangs, stays⟩ := (repair_pruned g.undirected_positions (g.vector members)).dropped i
    ((flag_vector hi).mpr member) (Bool.eq_false_iff.mpr out)
  have inside : j < g.nodes.length := by
    have := lt_length_of_flag stays
    rwa [length_repair_vector] at this
  have hj := List.getElem?_eq_getElem inside
  exact ⟨_, (pendant_iff hi hj).mpr hangs, (mem_select_of_getElem? hj).mpr stays⟩

/-- No node is left together with the node it hangs on. -/
theorem not_mem_of_pendant (hangs : g.Pendant v u) (member : v ∈ g.dropRedundant members) :
    u ∉ g.dropRedundant members := by
  intro covered
  obtain ⟨i, hi, set⟩ := mem_select.mp member
  obtain ⟨j, hj, other⟩ := mem_select.mp covered
  rw [repair_apart g.undirected_positions _ i j ((pendant_iff hi hj).mp hangs) set] at other
  cases other

/-- The edges that were covered stay covered: the only edge of a node that is dropped leads to a
node that is left. -/
theorem dropRedundant_meets (adj : g.Adj u v) (covered : u ∈ members) :
    u ∈ g.dropRedundant members ∨ v ∈ g.dropRedundant members := by
  by_cases left : u ∈ g.dropRedundant members
  · exact .inl left
  · obtain ⟨w, ⟨_, only⟩, stays⟩ := pendant_of_dropped adj.left_mem covered left
    exact .inr ((only v).mp adj ▸ stays)

/-- **The repair pass on any set of labels.** What is left is listed in node order and consists of
nodes among the given labels; whatever edge these covered is still covered. Nodes with a loop and
nodes without an edge are left; indeed every node that is dropped hangs on a node that is left. No
node is left together with the node it hangs on, and a second pass changes nothing. Only the nodes
among the given labels matter. -/
theorem dropRedundant_sound (g : Graph) (members : List Label) :
    (g.dropRedundant members).Sublist g.nodes ∧
    (∀ v ∈ g.dropRedundant members, v ∈ members ∧ v ∈ g.nodes) ∧
    (∀ u v, g.Adj u v → u ∈ members ∨ v ∈ members →
      u ∈ g.dropRedundant members ∨ v ∈ g.dropRedundant members) ∧
    (∀ v ∈ members, g.Adj v v → v ∈ g.dropRedundant members) ∧
    (∀ v ∈ members, v ∈ g.nodes → (∀ u, ¬ g.Adj v u) → v ∈ g.dropRedundant members) ∧
    (∀ v ∈ members, v ∈ g.nodes → v ∉ g.dropRedundant members →
      ∃ u, g.Pendant v u ∧ u ∈ g.dropRedundant members) ∧
    (∀ v u, g.Pendant v u → ¬ (v ∈ g.dropRedundant members ∧ u ∈ g.dropRedundant members)) ∧
    g.dropRedundant (g.dropRedundant members) = g.dropRedundant members ∧
    (∀ others : List Label, (∀ v ∈ g.nodes, (v ∈ others ↔ v ∈ members)) →
      g.dropRedundant others = g.dropRedundant members) := by
  refine ⟨g.select_sublist _, fun v => mem_of_mem_dropRedundant, ?_, ?_, ?_, ?_, ?_,
    g.dropRedundant_dropRedundant members, fun others => dropRedundant_congr⟩
  · rintro u v adj (covered | covered)
    · exact dropRedundant_meets adj covered
    · exact (dropRedundant_meets adj.symm covered).symm
  · intro v member loop
    exact (dropRedundant_meets loop member).elim id id
  · intro v member node isolated
    by_contra out
    obtain ⟨u, ⟨_, only⟩, _⟩ := pendant_of_dropped node member out
    exact isolated u ((only u).mpr rfl)
  · exact fun v member node => pendant_of_dropped node member
  · exact fun v u hangs both => not_mem_of_pendant hangs both.1 both.2

end Graph

end VertexCover
