import Mathlib.Data.List.Nodup
import Mathlib.Data.List.Pairwise
import Mathlib.Order.Minimal
import VertexCover.Check
import VertexCover.Proofs.Clique

/-!
# What the checks decide

The checks go through the edges or through the pairs of a list; here they are stated by adjacency.
The check for minimal covers leaves out one label at a time. That decides about all smaller sets,
because a set that holds a cover is a cover.

* `isCover_iff`, `isClique_iff`, `isIndependent_iff`: the checks by adjacency;
* `isMinimalCover_iff`: the check for minimal covers;
* `IsMinimumCover.isMinimalCover`: covers with the fewest nodes pass it.
-/

namespace VertexCover

theorem all_pairs_iff {α : Type} {p : α × α → Bool} {xs : List α} :
    (pairs xs).all p = true ↔ xs.Pairwise fun x y => p (x, y) = true := by
  induction xs with
  | nil => simp [pairs]
  | cons x xs ih =>
    rw [pairs, List.all_append, Bool.and_eq_true, ih, List.pairwise_cons, List.all_map,
      List.all_eq_true]
    rfl

namespace Graph

variable {g : Graph} {members : List Label}

theorem isCover_iff :
    g.isCover members = true ↔ ∀ u v, g.Adj u v → u ∈ members ∨ v ∈ members := by
  simp only [isCover, List.all_eq_true, Bool.or_eq_true, List.contains_iff_mem]
  constructor
  · intro covered u v adj
    rcases adj_iff.mp adj with listed | listed
    · exact covered _ listed
    · exact (covered _ listed).symm
  · rintro covered ⟨u, v⟩ listed
    exact covered u v (adj_iff.mpr (.inl listed))

theorem isClique_iff (nodup : members.Nodup) :
    g.isClique members = true ↔ ∀ u ∈ members, ∀ v ∈ members, u ≠ v → g.Adj u v := by
  rw [isClique, all_pairs_iff]
  change members.Pairwise g.Adj ↔ _
  constructor
  · intro joined u hu v hv different
    have both : Std.Symm g.Adj := ⟨fun _ _ => Adj.symm⟩
    exact joined.forall hu hv different
  · exact List.Nodup.pairwise_of_forall_ne nodup

/-- A label with a loop is in no set that is accepted. -/
theorem isIndependent_iff :
    g.isIndependent members = true ↔ ∀ u ∈ members, ∀ v ∈ members, ¬ g.Adj u v := by
  simp only [isIndependent, List.all_eq_true, Bool.not_eq_true', Bool.and_eq_false_iff,
    List.contains_eq_mem, decide_eq_false_iff_not]
  constructor
  · intro apart u hu v hv adj
    rcases adj_iff.mp adj with listed | listed
    · exact (apart _ listed).elim (fun out => out hu) fun out => out hv
    · exact (apart _ listed).elim (fun out => out hv) fun out => out hu
  · rintro apart ⟨u, v⟩ listed
    by_cases hu : u ∈ members
    · exact .inr fun hv => apart u hu v hv (adj_iff.mpr (.inl listed))
    · exact .inl hu

/-! ## Minimal covers -/

/-- Every edge has an end in the set. -/
def Covered (g : Graph) (s : Set Label) : Prop := ∀ u v, g.Adj u v → u ∈ s ∨ v ∈ s

theorem Covered.mono {s t : Set Label} (covered : g.Covered s) (sub : s ⊆ t) : g.Covered t := by
  intro u v adj
  exact (covered u v adj).imp (fun hu => sub hu) fun hv => sub hv

theorem isCover_leaveOut {v : Label} : g.isCover (members.filter fun u => u != v) = true ↔
    g.Covered ({u | u ∈ members} \ {v}) := by
  rw [isCover_iff]
  simp [Covered]

/-- The check asks for a minimal set, in the order of inclusion, among those that cover. -/
theorem isMinimalCover_iff :
    g.isMinimalCover members = true ↔ Minimal g.Covered {v | v ∈ members} := by
  have mono : ∀ ⦃s t : Set Label⦄, g.Covered t → t ⊆ s → g.Covered s :=
    fun _ _ covered => covered.mono
  rw [Set.minimal_iff_forall_sdiff_singleton mono, isMinimalCover, Bool.and_eq_true, isCover_iff,
    List.all_eq_true]
  simp only [Bool.not_eq_true', ← isCover_leaveOut, Bool.not_eq_true]
  rfl

/-- Without one of its nodes a cover with the fewest nodes is none. -/
theorem IsMinimumCover.isMinimalCover (cover : g.IsMinimumCover members) :
    g.isMinimalCover members = true := by
  rw [Graph.isMinimalCover, Bool.and_eq_true, List.all_eq_true]
  refine ⟨isCover_iff.mpr cover.meets, fun v hv => ?_⟩
  rw [Bool.not_eq_true', Bool.eq_false_iff]
  intro accepted
  have smaller : g.IsVertexCover (members.filter fun u => u != v) := by
    refine ⟨cover.nodup.filter _, fun u hu => ?_, isCover_iff.mp accepted⟩
    exact cover.nodes u (List.mem_filter.mp hu).1
  have fewer : (members.filter fun u => u != v).length < members.length :=
    List.length_filter_lt_length_iff_exists.mpr ⟨v, hv, by simp⟩
  have least := cover.least _ smaller
  omega

/-- **Leaving out one label at a time decides minimality.** Any labels pass the check, nodes of the
graph or not, exactly if they cover every edge and no proper subset of them does. What the search for
a smallest cover returns always passes. -/
theorem isMinimalCover_decides (g : Graph) :
    (∀ members : List Label, g.isMinimalCover members = true ↔
      g.Covered {v | v ∈ members} ∧ ∀ others : Set Label, others ⊆ {v | v ∈ members} →
        others ≠ {v | v ∈ members} → ¬ g.Covered others) ∧
    ∀ repair, g.isMinimalCover (g.minimumCover repair).members = true := by
  constructor
  · intro members
    rw [isMinimalCover_iff, minimal_subset_iff]
    constructor
    · rintro ⟨covered, smallest⟩
      exact ⟨covered, fun others sub proper other => proper (smallest other sub).symm⟩
    · rintro ⟨covered, broken⟩
      refine ⟨covered, fun others other sub => ?_⟩
      by_contra proper
      exact broken others sub (Ne.symm proper) other
  · intro repair
    rw [members_minimumCover]
    exact g.isMinimumCover_select_best.isMinimalCover

end Graph

end VertexCover
