import VertexCover.Proofs.Search.Optimum

/-!
# A bounded search is the beginning of the unbounded one

A search with a target stops moving once its best cover is small enough, while the loops that are
still open run out. Until then it does what a search with a smaller target, or with none, does too.

* `Advances`: a run puts its covers one after the other at the end of its history, each smaller than
  the one before, and its counters only grow;
* `sweep_retarget`: a run with a wider target does what the other run does, or has stopped on the
  way there;
* `explore_pending`: no cover but the last in the history of a search is within the target;
* `coverAtMost_first_best`: what follows for the bounded search of a graph.
-/

namespace VertexCover

namespace Search

variable {adjacency : List (List Nat)} {bounded : Bool} {candidates rest : List Nat} {v : Nat}
  {k : Int} {s t u : State}

/-- The covers that were best in turn, up to the one that is best now. -/
def State.history (s : State) : List (List Bool) := (s.best :: s.earlier).reverse

/-! ## What a run adds -/

/-- The second state explores the cover of the first one, later in a run. -/
structure Advances (s t : State) : Prop extends Returns s t where
  branches : s.branches ≤ t.branches
  leaves : s.leaves ≤ t.leaves
  pruned : s.pruned ≤ t.pruned
  history : s.history <+: t.history
  unbeaten : t.bestSize = s.bestSize → t.best = s.best

theorem Advances.refl (s : State) : Advances s s :=
  ⟨.refl s, Nat.le_refl _, Nat.le_refl _, Nat.le_refl _, List.prefix_refl _, fun _ => rfl⟩

theorem Advances.trans (h : Advances s t) (next : Advances t u) : Advances s u where
  toReturns := h.toReturns.trans next.toReturns
  branches := Nat.le_trans h.branches next.branches
  leaves := Nat.le_trans h.leaves next.leaves
  pruned := Nat.le_trans h.pruned next.pruned
  history := h.history.trans next.history
  unbeaten := by
    intro same
    have first := h.bestSize
    have second := next.bestSize
    rw [next.unbeaten (by omega), h.unbeaten (by omega)]

theorem record_advances (s : State) : Advances s s.record := by
  have returns := record_returns s
  rcases Int.lt_or_le s.size s.bestSize with lt | le
  · rw [record_of_lt lt] at returns ⊢
    refine ⟨returns, Nat.le_refl _, Nat.le_succ _, Nat.le_refl _, ?_, fun same => ?_⟩
    · simp [State.history]
    · exact absurd same (Int.ne_of_lt lt)
  · rw [record_of_le le] at returns ⊢
    exact ⟨returns, Nat.le_refl _, Nat.le_succ _, Nat.le_refl _, List.prefix_refl _, fun _ => rfl⟩

theorem advances_kept (adjacency : List (List Nat)) : Kept adjacency Advances where
  refl := .refl
  trans := .trans
  cover := (·.cover)
  enter := fun s => ⟨(returns_kept adjacency).enter s, Nat.le_succ _, Nat.le_refl _, Nat.le_refl _,
    List.prefix_refl _, fun _ => rfl⟩
  record := fun s _ => record_advances s
  cut := fun s => ⟨(returns_kept adjacency).cut s, Nat.le_refl _, Nat.le_refl _, Nat.le_succ _,
    List.prefix_refl _, fun _ => rfl⟩
  around := fun hv _ h => ⟨reinstate_returns hv h.toReturns, h.branches, h.leaves, h.pruned,
    h.history, h.unbeaten⟩

theorem sweep_advances (nodup : candidates.Nodup) (present : Present candidates s) :
    Advances s (sweep adjacency bounded candidates s) :=
  (advances_kept adjacency).sweep nodup present

theorem visit_advances (nodup : (v :: rest).Nodup) (present : Present (v :: rest) s) :
    Advances s (visit adjacency bounded v rest s) := by
  obtain ⟨fresh, nodup⟩ := List.nodup_cons.mp nodup
  apply (advances_kept adjacency).visit (present v List.mem_cons_self)
  exact sweep_advances nodup (Present.exclude (s := s.enter) present fresh)

/-! ## A search stops at the first cover within its target -/

/-- No cover that was best before is within the target. -/
def Pending (s : State) : Prop :=
  ∀ flags ∈ s.earlier, ∀ k, s.target = some k → k < count flags

theorem Pending.record (h : Pending s) (size : s.bestSize = count s.best)
    (unmet : s.targetMet = false) : Pending s.record := by
  rcases Int.lt_or_le s.size s.bestSize with lt | le
  · rw [record_of_lt lt]
    intro flags hf k (hk : s.target = some k)
    rcases List.mem_cons.mp hf with rfl | hf
    · rw [← size]
      simpa [State.targetMet, hk] using unmet
    · exact h flags hf k hk
  · rw [record_of_le le]
    exact h

theorem pending_kept (both : Undirected adjacency) : Kept adjacency fun s t =>
    (Returns s t ∧ (Sound adjacency s → Sound adjacency t)) ∧
      (Sound adjacency s → Pending s → Pending t) where
  refl := fun s => ⟨(sound_kept both).refl s, fun _ => id⟩
  trans := fun h k => ⟨(sound_kept both).trans h.1 k.1,
    fun sound pending => k.2 (h.1.2 sound) (h.2 sound pending)⟩
  cover := (·.1.1.cover)
  enter := fun s => ⟨(sound_kept both).enter s, fun _ => id⟩
  record := fun s unmet => ⟨(sound_kept both).record s unmet,
    fun sound pending => pending.record sound.bestSize unmet⟩
  cut := fun s => ⟨(sound_kept both).cut s, fun _ => id⟩
  around := fun hv free h => ⟨(sound_kept both).around hv free h.1,
    fun sound pending => h.2 (sound.exclude both hv free) pending⟩

/-! ## Two targets -/

/-- The state with another target. -/
def State.retarget (s : State) (k : Int) : State := { s with target := some k }

/-- Every size within the target is within `k`. -/
def Wider (k : Int) : Option Int → Prop
  | none => True
  | some j => j ≤ k

theorem targetMet_retarget (wider : Wider k s.target) (met : s.targetMet = true) :
    (s.retarget k).targetMet = true := by
  unfold State.targetMet at met
  cases hs : s.target with
  | none => simp [hs] at met
  | some j =>
    simp only [hs, decide_eq_true_eq] at met
    have le : j ≤ k := by simpa [hs, Wider] using wider
    exact decide_eq_true (Int.le_trans met le)

theorem record_retarget (s : State) (k : Int) : (s.retarget k).record = s.record.retarget k := by
  rcases Int.lt_or_le s.size s.bestSize with lt | le
  · rw [record_of_lt lt, record_of_lt (s := s.retarget k) lt]
    rfl
  · rw [record_of_le le, record_of_le (s := s.retarget k) le]
    rfl

theorem Advances.retarget (h : Advances s t) (k : Int) :
    Advances (s.retarget k) (t.retarget k) :=
  ⟨⟨h.cover, h.size, rfl, h.bestSize⟩, h.branches, h.leaves, h.pruned, h.history, h.unbeaten⟩

/-- The first state is the second one, or it has met its target on the way there. -/
def Halts (s t : State) : Prop := s = t ∨ s.targetMet = true ∧ Advances s t

theorem Halts.advances (h : Halts s t) : Advances s t := by
  rcases h with rfl | ⟨_, h⟩
  · exact .refl s
  · exact h

theorem Halts.reinstate (h : Halts s t) (v : Nat) : Halts (s.reinstate v) (t.reinstate v) := by
  rcases h with rfl | ⟨met, h⟩
  · exact .inl rfl
  · refine .inr ⟨met, ⟨?_, ?_, h.target, h.bestSize⟩, h.branches, h.leaves, h.pruned, h.history,
      h.unbeaten⟩
    · simp only [State.reinstate, h.cover]
    · simp only [State.reinstate, h.size]

theorem visit_of_targetMet (met : s.targetMet = true) : visit adjacency bounded v rest s = s :=
  if_pos met

/-- Once the target is met, the loops that are still open run out without a change. -/
theorem sweep_of_targetMet (met : s.targetMet = true) :
    sweep adjacency bounded candidates s = s := by
  induction candidates with
  | nil => rfl
  | cons v rest ih => rw [sweep_cons, visit_of_targetMet met, ih]

theorem descend_retarget (below : Halts (sweep adjacency bounded rest (s.retarget k))
      ((sweep adjacency bounded rest s).retarget k)) :
    Halts (descend adjacency bounded rest (s.retarget k))
      ((descend adjacency bounded rest s).retarget k) := by
  unfold descend
  split
  · exact .inl (record_retarget s k)
  · have same : (s.retarget k).hopeless rest.length = s.hopeless rest.length := rfl
    rw [same]
    split
    · exact .inl rfl
    · exact below

theorem visit_retarget (nodup : (v :: rest).Nodup) (present : Present (v :: rest) s)
    (wider : Wider k s.target)
    (below : Halts (sweep adjacency bounded rest ((s.enter.exclude v).retarget k))
      ((sweep adjacency bounded rest (s.enter.exclude v)).retarget k)) :
    Halts (visit adjacency bounded v rest (s.retarget k))
      ((visit adjacency bounded v rest s).retarget k) := by
  cases met : (s.retarget k).targetMet with
  | true =>
    -- The wider run stands still, whatever the other one does here.
    rw [visit_of_targetMet met]
    exact .inr ⟨met, (visit_advances nodup present).retarget k⟩
  | false =>
    have unmet : s.targetMet = false := by
      refine Bool.eq_false_iff.mpr fun early => ?_
      simp [targetMet_retarget wider early] at met
    have cover : (s.retarget k).cover = s.cover := rfl
    unfold visit
    simp only [met, unmet, cover, Bool.false_eq_true, ↓reduceIte]
    split
    · exact .inl (record_retarget s.enter k)
    · exact (descend_retarget below).reinstate v

/-- A run with a wider target does what the other run does, or it stops on the way there. -/
theorem sweep_retarget (nodup : candidates.Nodup) (present : Present candidates s)
    (wider : Wider k s.target) :
    Halts (sweep adjacency bounded candidates (s.retarget k))
      ((sweep adjacency bounded candidates s).retarget k) := by
  induction candidates generalizing s with
  | nil => exact .inl rfl
  | cons v rest ih =>
    have visited : Advances s (visit adjacency bounded v rest s) := visit_advances nodup present
    have inner : Present rest (s.enter.exclude v) :=
      Present.exclude (s := s.enter) present (List.nodup_cons.mp nodup).1
    have first : Halts (visit adjacency bounded v rest (s.retarget k))
        ((visit adjacency bounded v rest s).retarget k) :=
      visit_retarget nodup present wider (ih nodup.of_cons inner wider)
    have later : Present rest (visit adjacency bounded v rest s) := present.tail visited.cover
    rw [sweep_cons, sweep_cons]
    rcases first with same | ⟨met, ahead⟩
    · rw [same]
      exact ih nodup.of_cons later (visited.target ▸ wider)
    · rw [sweep_of_targetMet met]
      exact .inr ⟨met, ahead.trans ((sweep_advances nodup.of_cons later).retarget k)⟩

/-- The first cover of the history that is within the target is the best one, if any is. -/
theorem find_history (h : Pending s) (size : s.bestSize = count s.best)
    (target : s.target = some k) :
    (s.history.find? fun flags => count flags ≤ k) =
      if s.targetMet then some s.best else none := by
  have outside : (s.earlier.reverse.find? fun flags => count flags ≤ k) = none := by
    refine List.find?_eq_none.mpr fun flags hf => ?_
    have beyond := h flags (List.mem_reverse.mp hf) k target
    simpa using beyond
  have met : s.targetMet = decide ((count s.best : Int) ≤ k) := by
    simp only [State.targetMet, target, size]
  rw [State.history, List.reverse_cons, List.find?_append, outside, met, Option.none_or]
  by_cases within : (count s.best : Int) ≤ k <;> simp [within]

end Search

/-- No counter of the first search is above that of the second one. -/
def Stats.NoMore (a b : Stats) : Prop :=
  a.branches ≤ b.branches ∧ a.leaves ≤ b.leaves ∧ a.pruned ≤ b.pruned

namespace Graph
open Search

variable {g : Graph} {k : Int}

theorem explore_pending (g : Graph) (bounded : Bool) (target : Option Int) :
    Pending (g.explore bounded target) := by
  have start : Pending (.start g.initialCover target) := fun _ hf => by cases hf
  exact ((pending_kept g.undirected_positions).sweep g.candidates_nodup
    (g.present_start target)).2 (g.sound_start target) start

/-- A search with a wider target stops on the way of the other one. -/
theorem explore_halts (g : Graph) (target : Option Int) (wider : Wider k target) :
    Halts (g.explore true (some k)) ((g.explore true target).retarget k) :=
  sweep_retarget (s := .start g.initialCover target) g.candidates_nodup (g.present_start target)
    wider

theorem noMore_stats {bound bound' : Option Int} (target : Option Int) (wider : Wider k target) :
    ((g.explore true (some k)).stats bound).NoMore ((g.explore true target).stats bound') := by
  have ahead := (g.explore_halts target wider).advances
  exact ⟨ahead.branches, ahead.leaves, ahead.pruned⟩

theorem history_explore (g : Graph) (target : Option Int) :
    ∃ improved, (g.explore true target).history = g.initialCover :: improved := by
  have ahead : Advances (.start g.initialCover target) (g.explore true target) :=
    sweep_advances g.candidates_nodup (g.present_start target)
  obtain ⟨improved, same⟩ := ahead.history
  exact ⟨improved, same.symm⟩

/-- A search with a target ends with the first cover within it that the search without a target
holds, or with the last one. -/
theorem best_eq_find (g : Graph) (k : Int) : (g.explore true (some k)).best =
    ((g.explore true none).history.find? fun flags => count flags ≤ k).getD
      (g.explore true none).best := by
  have found := find_history (g.explore_pending true (some k))
    (g.explore_sound true (some k)).bestSize (g.explore_target true (some k))
  rcases g.explore_halts (k := k) none trivial with same | ⟨met, ahead⟩
  · have history : (g.explore true none).history = (g.explore true (some k)).history := by
      rw [same]; rfl
    have best : (g.explore true none).best = (g.explore true (some k)).best := by rw [same]; rfl
    rw [history, found, best]
    split <;> rfl
  · obtain ⟨improved, longer⟩ := ahead.history
    have longer : (g.explore true none).history = (g.explore true (some k)).history ++ improved :=
      longer.symm
    rw [longer, List.find?_append, found, if_pos met]
    rfl

/-- A bound that is not above the size of a smallest cover never stops the search too early: a cover
within it is a smallest one, and such a cover is kept to the end. -/
theorem best_eq_of_le {least : List Label} (h : g.IsMinimumCover least) (le : k ≤ least.length) :
    (g.explore true (some k)).best = (g.explore true none).best := by
  rcases g.explore_halts (k := k) none trivial with same | ⟨met, ahead⟩
  · rw [same]; rfl
  · have within : (g.explore true (some k)).bestSize ≤ k := by
      simpa [State.targetMet, explore_target] using met
    have smallest := h.least _ g.isMinimumCover_select_best.toIsVertexCover
    have size := g.length_select_best true none
    have smaller : (g.explore true none).bestSize ≤ (g.explore true (some k)).bestSize :=
      ahead.bestSize
    exact (ahead.unbeaten (show (g.explore true none).bestSize = _ by omega)).symm

/-- **A bounded search is the beginning of the unbounded one.** Take the covers that are best in
turn in the search without a bound; the first is the cover of all nodes with an edge. For every
bound the bounded search returns the first of them within the bound, or the last one if none is. None
of its counters is above that of a search with a smaller bound or with none. In particular, a bound
that is not above the size of a smallest cover gives the answer of the minimum search. -/
theorem coverAtMost_first_best (g : Graph) :
    (∃ improved, (g.explore true none).history = g.initialCover :: improved) ∧
    ∀ k : Int, 0 ≤ k → ∃ found, g.coverAtMost k = .ok found ∧
      found.members = g.select (((g.explore true none).history.find? fun flags =>
        count flags ≤ k).getD (g.explore true none).best) ∧
      (∀ j < k, ∀ other, g.coverAtMost j = .ok other → found.stats.NoMore other.stats) ∧
      (∀ repair, found.stats.NoMore (g.minimumCover repair).stats) ∧
      (∀ least, g.IsMinimumCover least → k ≤ least.length →
        found.members = (g.minimumCover false).members) := by
  refine ⟨g.history_explore none, fun k allowed => ?_⟩
  refine ⟨g.boundedCover k, if_neg (by omega), congrArg g.select (g.best_eq_find k), ?_, ?_, ?_⟩
  · intro j smaller other answer
    unfold coverAtMost at answer
    split at answer
    · cases answer
    · cases answer
      exact noMore_stats (some j) (Int.le_of_lt smaller)
  · exact fun repair => noMore_stats none trivial
  · exact fun least h le => congrArg g.select (best_eq_of_le h le)

-- On the path `0 - 1 - 2 - 3` the bound 3 stops the search one cover before the smallest.
example : (((empty 4).insertEdges
    [(.int 0, .int 1), (.int 1, .int 2), (.int 2, .int 3)]).boundedCover 3).members =
      [.int 1, .int 2, .int 3] := by decide

end Graph

end VertexCover
