import VertexCover.Proofs.Search.Optimum

/-!
# The cut never changes the answer

A branch is cut if taking out all of the remaining candidates would not beat the best size. The
search with the cut and the plain one visit different branches, so their counters differ. This file
shows that nothing else does:

* `sweep_hopeless`: a sweep over too few candidates to beat the best size moves only the counters;
* `sweep_alike`: the two sweeps, begun in states that differ only in their counters, end in such
  states;
* `explore_cut_eq_plain`: both searches of a graph hold the same covers as best ones, in the same
  order.
-/

namespace VertexCover.Search

variable {adjacency : List (List Nat)} {bounded : Bool} {candidates rest : List Nat} {v : Nat}
  {s t u : State}

/-! ## States that differ in their counters -/

/-- The states differ at most in their counters. -/
structure Alike (s t : State) : Prop where
  cover : t.cover = s.cover
  size : t.size = s.size
  best : t.best = s.best
  bestSize : t.bestSize = s.bestSize
  earlier : t.earlier = s.earlier
  target : t.target = s.target

theorem Alike.refl (s : State) : Alike s s := ⟨rfl, rfl, rfl, rfl, rfl, rfl⟩

theorem Alike.trans (h : Alike s t) (k : Alike t u) : Alike s u :=
  ⟨k.cover.trans h.cover, k.size.trans h.size, k.best.trans h.best, k.bestSize.trans h.bestSize,
    k.earlier.trans h.earlier, k.target.trans h.target⟩

theorem Alike.targetMet (h : Alike s t) : t.targetMet = s.targetMet := by
  simp only [State.targetMet, h.target, h.bestSize]

theorem Alike.enter (h : Alike s t) : Alike s.enter t.enter :=
  ⟨h.cover, h.size, h.best, h.bestSize, h.earlier, h.target⟩

theorem Alike.exclude (h : Alike s t) (v : Nat) : Alike (s.exclude v) (t.exclude v) where
  cover := by simp only [State.exclude, h.cover]
  size := by simp only [State.exclude, h.size]
  best := h.best
  bestSize := h.bestSize
  earlier := h.earlier
  target := h.target

theorem Alike.reinstate (h : Alike s t) (v : Nat) : Alike (s.reinstate v) (t.reinstate v) where
  cover := by simp only [State.reinstate, h.cover]
  size := by simp only [State.reinstate, h.size]
  best := h.best
  bestSize := h.bestSize
  earlier := h.earlier
  target := h.target

theorem Alike.record (h : Alike s t) : Alike s.record t.record := by
  rcases Int.lt_or_le s.size s.bestSize with lt | le
  · rw [record_of_lt lt, record_of_lt (by rw [h.size, h.bestSize]; exact lt)]
    exact ⟨h.cover, h.size, h.cover, h.size, by rw [h.best, h.earlier], h.target⟩
  · rw [record_of_le le, record_of_le (by rw [h.size, h.bestSize]; exact le)]
    exact ⟨h.cover, h.size, h.best, h.bestSize, h.earlier, h.target⟩

/-- A cover that is no smaller than the best one is counted and forgotten. -/
theorem record_idle (le : s.bestSize ≤ s.size) : Alike s s.record := by
  rw [record_of_le le]
  exact ⟨rfl, rfl, rfl, rfl, rfl, rfl⟩

theorem reinstate_alike (hv : flag s.cover v = true) (h : Alike (s.exclude v) t) :
    Alike s (t.reinstate v) := by
  have back : Returns s (t.reinstate v) :=
    reinstate_returns hv ⟨h.cover, h.size, h.target, Int.le_of_eq h.bestSize⟩
  exact ⟨back.cover, back.size, h.best, h.bestSize, h.earlier, h.target⟩

/-! ## A hopeless sweep -/

theorem descend_hopeless (le : s.bestSize ≤ s.size)
    (below : Alike s (sweep adjacency bounded rest s)) :
    Alike s (descend adjacency bounded rest s) := by
  unfold descend
  split
  · exact record_idle le
  · split
    · exact ⟨rfl, rfl, rfl, rfl, rfl, rfl⟩
    · exact below

theorem visit_hopeless (hv : flag s.cover v = true) (le : s.bestSize ≤ s.size - 1)
    (below : Alike (s.enter.exclude v) (sweep adjacency bounded rest (s.enter.exclude v))) :
    Alike s (visit adjacency bounded v rest s) := by
  have entered : Alike s s.enter := ⟨rfl, rfl, rfl, rfl, rfl, rfl⟩
  unfold visit
  split
  · exact .refl s
  · split
    · exact entered.trans (record_idle (s := s.enter) (by simp only [State.enter]; omega))
    · exact entered.trans (reinstate_alike (s := s.enter) hv (descend_hopeless le below))

/-- A sweep that could not beat the best size by taking out all of its candidates changes nothing
but the counters. -/
theorem sweep_hopeless (nodup : candidates.Nodup) (present : Present candidates s)
    (hopeless : s.bestSize ≤ s.size - candidates.length) :
    Alike s (sweep adjacency bounded candidates s) := by
  induction candidates generalizing s with
  | nil => exact .refl s
  | cons v rest ih =>
    obtain ⟨fresh, nodup⟩ := List.nodup_cons.mp nodup
    rw [List.length_cons] at hopeless
    -- One vertex less in the cover and one candidate less to come: the bound below is the same.
    have below : Alike (s.enter.exclude v) (sweep adjacency bounded rest (s.enter.exclude v)) := by
      apply ih nodup (Present.exclude (s := s.enter) present fresh)
      simp only [State.exclude, State.enter]
      omega
    have visited : Alike s (visit adjacency bounded v rest s) :=
      visit_hopeless (present v List.mem_cons_self) (by omega) below
    rw [sweep_cons]
    apply visited.trans (ih nodup (present.tail visited.cover) _)
    rw [visited.bestSize, visited.size]
    omega

/-! ## With and without the cut -/

/-- Below a vertex the two searches part only at a cut, and what the plain one does there is
hopeless. -/
theorem descend_alike (nodup : rest.Nodup) (present : Present rest t) (h : Alike s t)
    (below : Alike (sweep adjacency true rest s) (sweep adjacency false rest t)) :
    Alike (descend adjacency true rest s) (descend adjacency false rest t) := by
  unfold descend
  simp only [Bool.true_and, Bool.false_and, Bool.false_eq_true, ↓reduceIte]
  split
  · exact h.record
  · split
    · rename_i cut
      have hopeless : t.bestSize ≤ t.size - rest.length := by
        rw [h.bestSize, h.size]
        simpa [State.hopeless] using cut
      have uncut : Alike s.cut t := ⟨h.cover, h.size, h.best, h.bestSize, h.earlier, h.target⟩
      exact uncut.trans (sweep_hopeless nodup present hopeless)
    · exact below

theorem visit_alike (nodup : rest.Nodup) (present : Present rest (t.enter.exclude v))
    (h : Alike s t) (below : Alike (sweep adjacency true rest (s.enter.exclude v))
      (sweep adjacency false rest (t.enter.exclude v))) :
    Alike (visit adjacency true v rest s) (visit adjacency false v rest t) := by
  unfold visit
  rw [h.targetMet, h.cover]
  split
  · exact h
  · split
    · exact h.enter.record
    · exact (descend_alike nodup present (h.enter.exclude v) below).reinstate v

/-- The sweep with the cut and the plain sweep end alike. -/
theorem sweep_alike (nodup : candidates.Nodup) (present : Present candidates t) (h : Alike s t) :
    Alike (sweep adjacency true candidates s) (sweep adjacency false candidates t) := by
  induction candidates generalizing s t with
  | nil => exact h
  | cons v rest ih =>
    obtain ⟨fresh, nodup⟩ := List.nodup_cons.mp nodup
    have inner : Present rest (t.enter.exclude v) := Present.exclude (s := t.enter) present fresh
    have visited := visit_alike nodup inner h (ih nodup inner (h.enter.exclude v))
    have back : Returns t (visit adjacency false v rest t) :=
      (returns_kept adjacency).visit (present v List.mem_cons_self) (sweep_returns nodup inner)
    rw [sweep_cons, sweep_cons]
    exact ih nodup (present.tail back.cover) visited

end VertexCover.Search

namespace VertexCover.Graph
open Search

/-- **The cut never changes the answer.** For every graph and every target the search with the cut
and the plain search end with the same best cover of the same size, and the covers that were best
before are the same too. -/
theorem explore_cut_eq_plain (g : Graph) (target : Option Int) :
    (g.explore true target).best = (g.explore false target).best ∧
    (g.explore true target).bestSize = (g.explore false target).bestSize ∧
    (g.explore true target).earlier = (g.explore false target).earlier := by
  have same : Alike (g.explore true target) (g.explore false target) :=
    sweep_alike g.candidates_nodup (g.present_start target) (.refl _)
  exact ⟨same.best.symm, same.bestSize.symm, same.earlier.symm⟩

end VertexCover.Graph
