import Mathlib.Algebra.Ring.Nat
import VertexCover.Proofs.Search.Target

/-!
# The size of the search tree

The counters of a search tell how many branches it opened and how they ended: a branch ends in a
leaf, is cut, or goes on into branches of its own.

* `Grows`: the branches opened between two states, and how many of them ended;
* `sweep_grows`: a sweep over `n` candidates opens at most `2 ^ n - 1` branches;
* `length_le_branches`: without a target every candidate opens a branch;
* `leaves_lt_sweep`: the first descent of a search is not cut before it comes to a leaf;
* `explore_tree`: the counters of a search against the number of nodes with an edge.
-/

namespace VertexCover

namespace Search

variable {adjacency : List (List Nat)} {bounded : Bool} {candidates rest : List Nat} {v : Nat}
  {m n : Nat} {s t u : State}

/-! ## At most -/

/-- The branches that have ended: the leaves and the cuts. -/
def State.ended (s : State) : Nat := s.leaves + s.pruned

/-- Between the two states at most `n` branches were opened, and no more of them ended than were
opened. -/
structure Grows (n : Nat) (s t : State) : Prop where
  ended : t.ended + s.branches ≤ s.ended + t.branches
  branches : t.branches ≤ s.branches + n

theorem Grows.refl (n : Nat) (s : State) : Grows n s s :=
  ⟨Nat.le_refl _, Nat.le_add_right _ _⟩

theorem Grows.trans (h : Grows m s t) (k : Grows n t u) : Grows (m + n) s u := by
  obtain ⟨ended, branches⟩ := h
  obtain ⟨ended', branches'⟩ := k
  exact ⟨by omega, by omega⟩

theorem branches_record (s : State) : s.record.branches = s.branches := (record_counters s).1

theorem leaves_record (s : State) : s.record.leaves = s.leaves + 1 := (record_counters s).2.1

theorem ended_record (s : State) : s.record.ended = s.ended + 1 := by
  obtain ⟨_, leaves, pruned⟩ := record_counters s
  rw [State.ended, leaves, pruned, State.ended, Nat.add_right_comm]

/-- Below a vertex that is taken out, the branch of that vertex may end, besides those that are
opened there. -/
theorem descend_grows (below : Grows n s (sweep adjacency bounded rest s)) :
    (descend adjacency bounded rest s).ended + s.branches ≤
        s.ended + 1 + (descend adjacency bounded rest s).branches ∧
      (descend adjacency bounded rest s).branches ≤ s.branches + n := by
  unfold descend
  split
  · rw [ended_record, branches_record]
    exact ⟨Nat.le_refl _, Nat.le_add_right _ _⟩
  · split
    · exact ⟨Nat.le_refl _, Nat.le_add_right _ _⟩
    · obtain ⟨ended, branches⟩ := below
      exact ⟨by omega, branches⟩

/-- A visit opens one branch and those below it. -/
theorem visit_grows
    (below : Grows n (s.enter.exclude v) (sweep adjacency bounded rest (s.enter.exclude v))) :
    Grows (n + 1) s (visit adjacency bounded v rest s) := by
  unfold visit
  split
  · exact .refl _ s
  · split
    · constructor
      · rw [ended_record, branches_record]
        exact Nat.le_of_eq (Nat.add_right_comm _ _ _)
      · rw [branches_record]
        exact Nat.add_le_add_left (Nat.le_add_left 1 n) _
    · obtain ⟨ended, branches⟩ := descend_grows below
      have opened : (s.enter.exclude v).branches = s.branches + 1 := rfl
      have before : (s.enter.exclude v).ended = s.ended := rfl
      rw [opened, before] at ended
      rw [opened] at branches
      constructor
      · change (descend adjacency bounded rest (s.enter.exclude v)).ended + _ ≤
          _ + (descend adjacency bounded rest (s.enter.exclude v)).branches
        omega
      · change (descend adjacency bounded rest (s.enter.exclude v)).branches ≤ _
        omega

/-- **A sweep opens at most one branch for every choice of some of its candidates.** A candidate
that is followed by `k` others accounts for `2 ^ k` of them, its own branch and those below it. -/
theorem sweep_grows (adjacency : List (List Nat)) (bounded : Bool) (candidates : List Nat)
    (s : State) : Grows (2 ^ candidates.length - 1) s (sweep adjacency bounded candidates s) := by
  induction candidates generalizing s with
  | nil => exact .refl _ s
  | cons v rest ih =>
    have visited := visit_grows (ih (s.enter.exclude v))
    have both := visited.trans (ih (visit adjacency bounded v rest s))
    have weight : 2 ^ rest.length - 1 + 1 + (2 ^ rest.length - 1) = 2 ^ (v :: rest).length - 1 := by
      have positive := Nat.one_le_two_pow (n := rest.length)
      rw [List.length_cons, Nat.pow_succ]
      omega
    rw [sweep_cons, ← weight]
    exact both

/-! ## At least -/

/-- A visit opens a branch unless the target is met. -/
theorem branches_lt_visit (nodup : (v :: rest).Nodup) (present : Present (v :: rest) s)
    (unmet : s.targetMet = false) :
    s.branches < (visit adjacency bounded v rest s).branches := by
  obtain ⟨fresh, nodup⟩ := List.nodup_cons.mp nodup
  have below : Advances (s.enter.exclude v) (sweep adjacency bounded rest (s.enter.exclude v)) :=
    sweep_advances nodup (Present.exclude (s := s.enter) present fresh)
  have inner := (advances_kept adjacency).descend (s := s.enter.exclude v) unmet below
  unfold visit
  rw [if_neg (by simp [unmet])]
  split
  · rw [branches_record]
    exact Nat.lt_succ_self _
  · exact inner.branches

theorem length_le_branches (nodup : candidates.Nodup) (present : Present candidates s)
    (endless : s.target = none) :
    s.branches + candidates.length ≤ (sweep adjacency bounded candidates s).branches := by
  induction candidates generalizing s with
  | nil => exact Nat.le_refl _
  | cons v rest ih =>
    have unmet : s.targetMet = false := by simp [State.targetMet, endless]
    have here : s.branches < (visit adjacency bounded v rest s).branches :=
      branches_lt_visit nodup present unmet
    have visited : Advances s (visit adjacency bounded v rest s) := visit_advances nodup present
    have later := ih (List.nodup_cons.mp nodup).2 (present.tail visited.cover)
      (visited.target.trans endless)
    rw [sweep_cons, List.length_cons]
    omega

/-- While the cover has only become smaller since it was the best one, no cut is possible: the search
goes down to the first vertex that cannot be taken out, or to the last candidate. -/
theorem leaves_lt_sweep (nodup : candidates.Nodup) (present : Present candidates s)
    (unmet : s.targetMet = false) (first : s.size ≤ s.bestSize) (nonempty : candidates ≠ []) :
    s.leaves < (sweep adjacency bounded candidates s).leaves := by
  induction candidates generalizing s with
  | nil => exact absurd rfl nonempty
  | cons v rest ih =>
    obtain ⟨fresh, distinct⟩ := List.nodup_cons.mp nodup
    have visited : Advances s (visit adjacency bounded v rest s) := visit_advances nodup present
    have here : s.leaves < (visit adjacency bounded v rest s).leaves := by
      unfold visit
      rw [if_neg (by simp [unmet])]
      split
      · rw [leaves_record]
        exact Nat.lt_succ_self _
      · change s.leaves < (descend adjacency bounded rest (s.enter.exclude v)).leaves
        unfold descend
        split
        · rw [leaves_record]
          exact Nat.lt_succ_self _
        · rename_i more
          have smaller : (s.enter.exclude v).size < (s.enter.exclude v).bestSize := by
            change s.size - 1 < s.bestSize
            omega
          have hopeful : (s.enter.exclude v).hopeless rest.length = false := by
            rw [State.hopeless, decide_eq_false_iff_not]
            omega
          rw [if_neg (by simp [hopeful])]
          exact ih distinct (Present.exclude (s := s.enter) present fresh) unmet
            (Int.le_of_lt smaller) (by simpa using more)
    have later : Advances _ (sweep adjacency bounded rest (visit adjacency bounded v rest s)) :=
      sweep_advances distinct (present.tail visited.cover)
    rw [sweep_cons]
    exact Nat.lt_of_lt_of_le here later.leaves

end Search

namespace Graph
open Search

variable {g : Graph} {v : Label}

/-! ## The counters of a search -/

/-- The nodes with an edge. -/
def touched (g : Graph) : List Label := g.nodes.filter fun v => g.nodes.any (g.hasEdge v)

theorem mem_touched : v ∈ g.touched ↔ ∃ u, g.Adj v u := by
  rw [touched, List.mem_filter, List.any_eq_true]
  constructor
  · rintro ⟨_, u, _, adj⟩
    exact ⟨u, adj⟩
  · rintro ⟨u, adj⟩
    exact ⟨adj.left_mem, u, adj.right_mem, adj⟩

theorem mem_select_initialCover : v ∈ g.select g.initialCover ↔ v ∈ g.touched := by
  rw [mem_touched]
  constructor
  · exact touched_select g.proper_initialCover
  · rintro ⟨u, adj⟩
    obtain ⟨i, hi⟩ := List.mem_iff_getElem?.mp adj.left_mem
    obtain ⟨j, hj⟩ := List.mem_iff_getElem?.mp adj.right_mem
    have listed : j ∈ around g.positions i := (mem_positions_of_getElem? hi hj).mpr adj
    exact mem_select.mpr ⟨i, hi, flag_initialCover.mpr (List.ne_nil_of_mem listed)⟩

/-- The candidates of a search are as many as the nodes with an edge. -/
theorem length_candidates (g : Graph) : g.candidates.length = g.touched.length := by
  have same : (g.select g.initialCover).Perm g.touched :=
    (List.perm_ext_iff_of_nodup (g.nodup.sublist (g.select_sublist _)) (g.nodup.filter _)).mpr
      fun _ => mem_select_initialCover
  rw [← same.length_eq, length_select, count_initialCover]
  rw [g.proper_initialCover.length, length_positions]

/-- **The size of the search tree.** Among the branches that a search opens, with any target or with
none, no more have ended in leaves and cuts than were opened, and they are fewer than the sets of
nodes with an edge. A search without a target opens a branch for every such node at least, and comes
to a leaf if there is one. These are the counters that the two searches leave behind. -/
theorem explore_tree (g : Graph) :
    (∀ bounded target,
      (g.explore bounded target).leaves + (g.explore bounded target).pruned ≤
        (g.explore bounded target).branches ∧
      (g.explore bounded target).branches ≤ 2 ^ g.touched.length - 1) ∧
    (∀ bounded,
      g.touched.length ≤ (g.explore bounded none).branches ∧
      (0 < g.touched.length → 1 ≤ (g.explore bounded none).leaves)) ∧
    (∀ repair, (g.minimumCover repair).stats = (g.explore true none).stats none) ∧
    ∀ k, 0 ≤ k → ∃ found, g.coverAtMost k = .ok found ∧
      found.stats = (g.explore true (some k)).stats (some k) := by
  refine ⟨fun bounded target => ?_, fun bounded => ⟨?_, fun nonempty => ?_⟩, fun _ => rfl, ?_⟩
  · have grown := sweep_grows g.positions bounded g.candidates (.start g.initialCover target)
    rw [length_candidates] at grown
    have ended := grown.ended
    have branches := grown.branches
    simp only [State.start, State.ended, Nat.zero_add, Nat.add_zero] at ended branches
    exact ⟨ended, branches⟩
  · have least : _ + g.candidates.length ≤ (g.explore bounded none).branches :=
      length_le_branches g.candidates_nodup (g.present_start none) rfl
    rw [length_candidates] at least
    exact (Nat.le_add_left _ _).trans least
  · rw [← length_candidates, List.length_pos_iff] at nonempty
    exact leaves_lt_sweep g.candidates_nodup (g.present_start none) rfl (Int.le_refl _) nonempty
  · intro k allowed
    exact ⟨g.boundedCover k, if_neg (Int.not_lt.mpr allowed), rfl⟩

example : ((((empty 2).insertEdge (.int 0) (.int 1)).explore true none).stats none).branches =
    2 ^ 2 - 1 := by decide

end Graph

end VertexCover
