import VertexCover.Proofs.Cover

/-!
# Runs of the cover search

The search takes a candidate out, explores the later candidates below it and puts it back. This file
proves what one visit of a candidate does and, by induction over the candidates, what a whole sweep
does:

* `Kept.sweep`: a relation between states that every move keeps holds between the start and the end
  of a sweep;
* `sweep_returns`: a sweep comes back to the cover it started from and never loses the best one;
* `sweep_sound`: the cover that is explored and the best one stay covers, with the right sizes;
* `sweep_settles`: a sweep finds a cover as small as any that leaves out the same candidates or
  more, unless it meets its target before.
-/

namespace VertexCover.Search

variable {adjacency : List (List Nat)} {bounded : Bool} {candidates rest : List Nat} {v : Nat}
  {s t u : State}

/-! ## One visit -/

/-- What is done below a vertex that has been taken out. -/
def descend (adjacency : List (List Nat)) (bounded : Bool) (rest : List Nat) (s : State) : State :=
  if rest.isEmpty then s.record
  else if bounded && s.hopeless rest.length then s.cut
  else sweep adjacency bounded rest s

/-- The visit of a candidate that is followed by `rest`. -/
def visit (adjacency : List (List Nat)) (bounded : Bool) (v : Nat) (rest : List Nat) (s : State) :
    State :=
  if s.targetMet then s
  else if exposes adjacency s.cover v then s.enter.record
  else (descend adjacency bounded rest (s.enter.exclude v)).reinstate v

theorem sweep_cons (adjacency : List (List Nat)) (bounded : Bool) (v : Nat) (rest : List Nat)
    (s : State) : sweep adjacency bounded (v :: rest) s =
      sweep adjacency bounded rest (visit adjacency bounded v rest s) := rfl

/-- Every candidate is in the cover that is explored. -/
def Present (candidates : List Nat) (s : State) : Prop :=
  ∀ v ∈ candidates, flag s.cover v = true

theorem Present.exclude (h : Present (v :: rest) s) (fresh : v ∉ rest) :
    Present rest (s.exclude v) := by
  intro u hu
  have other : u ≠ v := fun same => fresh (same ▸ hu)
  simp [State.exclude, flag_set_false, h u (List.mem_cons_of_mem _ hu), other]

theorem Present.tail (h : Present (v :: rest) s) (same : t.cover = s.cover) : Present rest t := by
  intro u hu
  rw [same]
  exact h u (List.mem_cons_of_mem _ hu)

/-! ## Relations that every move keeps -/

/-- The relation holds between the states before and after every move, and around a vertex that is
taken out and put back. Covers are recorded only while the target is not met. -/
structure Kept (adjacency : List (List Nat)) (R : State → State → Prop) : Prop where
  refl : ∀ s, R s s
  trans : ∀ {s t u}, R s t → R t u → R s u
  cover : ∀ {s t}, R s t → t.cover = s.cover
  enter : ∀ s, R s s.enter
  record : ∀ s, s.targetMet = false → R s s.record
  cut : ∀ s, R s s.cut
  around : ∀ {s t v}, flag s.cover v = true → exposes adjacency s.cover v = false →
    R (s.exclude v) t → R s (t.reinstate v)

section
variable {R : State → State → Prop}

theorem Kept.descend (h : Kept adjacency R) (unmet : s.targetMet = false)
    (below : R s (sweep adjacency bounded rest s)) : R s (descend adjacency bounded rest s) := by
  unfold Search.descend
  split
  · exact h.record s unmet
  · split
    · exact h.cut s
    · exact below

theorem Kept.visit (h : Kept adjacency R) (hv : flag s.cover v = true)
    (below : R (s.enter.exclude v) (sweep adjacency bounded rest (s.enter.exclude v))) :
    R s (visit adjacency bounded v rest s) := by
  unfold Search.visit
  split
  · exact h.refl s
  · rename_i unmet
    have unmet : s.targetMet = false := Bool.eq_false_iff.mpr unmet
    split
    · exact h.trans (h.enter s) (h.record _ unmet)
    · rename_i free
      have free : exposes adjacency s.enter.cover v = false := Bool.eq_false_iff.mpr free
      exact h.trans (h.enter s) (h.around (s := s.enter) hv free (h.descend unmet below))

/-- What every move keeps, a sweep keeps. -/
theorem Kept.sweep (h : Kept adjacency R) (nodup : candidates.Nodup)
    (present : Present candidates s) : R s (sweep adjacency bounded candidates s) := by
  induction candidates generalizing s with
  | nil => exact h.refl s
  | cons v rest ih =>
    obtain ⟨fresh, nodup⟩ := List.nodup_cons.mp nodup
    have below := ih nodup (Present.exclude (s := s.enter) present fresh)
    have visited := h.visit (present v List.mem_cons_self) below
    rw [sweep_cons]
    exact h.trans visited (ih nodup (present.tail (h.cover visited)))

end

/-! ## The cover comes back -/

/-- The second state explores the same cover as the first, and its best cover is no larger. -/
structure Returns (s t : State) : Prop where
  cover : t.cover = s.cover
  size : t.size = s.size
  target : t.target = s.target
  bestSize : t.bestSize ≤ s.bestSize

theorem Returns.refl (s : State) : Returns s s := ⟨rfl, rfl, rfl, Int.le_refl _⟩

theorem Returns.trans (h : Returns s t) (k : Returns t u) : Returns s u :=
  ⟨k.cover.trans h.cover, k.size.trans h.size, k.target.trans h.target,
    Int.le_trans k.bestSize h.bestSize⟩

theorem record_of_lt (lt : s.size < s.bestSize) : s.record = { s with
    leaves := s.leaves + 1, best := s.cover, bestSize := s.size, earlier := s.best :: s.earlier } :=
  if_pos lt

theorem record_of_le (le : s.bestSize ≤ s.size) : s.record = { s with leaves := s.leaves + 1 } :=
  if_neg (Int.not_lt.mpr le)

/-- A record counts a leaf and nothing else. -/
theorem record_counters (s : State) : s.record.branches = s.branches ∧
    s.record.leaves = s.leaves + 1 ∧ s.record.pruned = s.pruned := by
  rcases Int.lt_or_le s.size s.bestSize with lt | le
  · rw [record_of_lt lt]
    exact ⟨rfl, rfl, rfl⟩
  · rw [record_of_le le]
    exact ⟨rfl, rfl, rfl⟩

theorem record_bestSize (s : State) : s.record.bestSize = min s.size s.bestSize := by
  rcases Int.lt_or_le s.size s.bestSize with lt | le
  · rw [record_of_lt lt]
    dsimp only
    omega
  · rw [record_of_le le]
    dsimp only
    omega

theorem record_returns (s : State) : Returns s s.record := by
  rcases Int.lt_or_le s.size s.bestSize with lt | le
  · rw [record_of_lt lt]
    exact ⟨rfl, rfl, rfl, Int.le_of_lt lt⟩
  · rw [record_of_le le]
    exact ⟨rfl, rfl, rfl, Int.le_refl _⟩

theorem reinstate_returns (hv : flag s.cover v = true) (h : Returns (s.exclude v) t) :
    Returns s (t.reinstate v) := by
  refine ⟨?_, ?_, h.target, h.bestSize⟩
  · simp only [State.reinstate, h.cover, State.exclude, List.set_set]
    exact set_true_of_flag hv
  · simp only [State.reinstate, h.size, State.exclude]
    omega

theorem returns_kept (adjacency : List (List Nat)) : Kept adjacency Returns where
  refl := .refl
  trans := .trans
  cover := (·.cover)
  enter := fun _ => ⟨rfl, rfl, rfl, Int.le_refl _⟩
  record := fun s _ => record_returns s
  cut := fun _ => ⟨rfl, rfl, rfl, Int.le_refl _⟩
  around := fun hv _ h => reinstate_returns hv h

/-- A sweep ends with the cover, the size and the target it started with. -/
theorem sweep_returns (nodup : candidates.Nodup) (present : Present candidates s) :
    Returns s (sweep adjacency bounded candidates s) :=
  (returns_kept adjacency).sweep nodup present

/-! ## The covers stay covers -/

/-- Flags of a vertex cover without isolated vertices, one for every vertex. -/
structure Proper (adjacency : List (List Nat)) (flags : List Bool) : Prop where
  length : flags.length = adjacency.length
  covers : Covers adjacency flags
  touched : ∀ v, flag flags v = true → around adjacency v ≠ []

theorem Proper.set_false {flags : List Bool} (both : Undirected adjacency)
    (h : Proper adjacency flags) (free : exposes adjacency flags v = false) :
    Proper adjacency (flags.set v false) where
  length := by rw [List.length_set, h.length]
  covers := h.covers.set_false both free
  touched := by
    intro u hu
    rw [flag_set_false, Bool.and_eq_true] at hu
    exact h.touched u hu.1

/-- The explored cover and the best one are vertex covers of the sizes on record. -/
structure Sound (adjacency : List (List Nat)) (s : State) : Prop where
  cover : Proper adjacency s.cover
  size : s.size = count s.cover
  best : Proper adjacency s.best
  bestSize : s.bestSize = count s.best

theorem Sound.record (h : Sound adjacency s) : Sound adjacency s.record := by
  rcases Int.lt_or_le s.size s.bestSize with lt | le
  · rw [record_of_lt lt]
    exact ⟨h.cover, h.size, h.cover, h.size⟩
  · rw [record_of_le le]
    exact ⟨h.cover, h.size, h.best, h.bestSize⟩

theorem Sound.exclude (both : Undirected adjacency) (h : Sound adjacency s)
    (hv : flag s.cover v = true) (free : exposes adjacency s.cover v = false) :
    Sound adjacency (s.exclude v) where
  cover := h.cover.set_false both free
  size := by
    have fewer := count_set_false hv
    have size := h.size
    simp only [State.exclude]
    omega
  best := h.best
  bestSize := h.bestSize

theorem sound_kept (both : Undirected adjacency) :
    Kept adjacency fun s t => Returns s t ∧ (Sound adjacency s → Sound adjacency t) where
  refl := fun s => ⟨.refl s, id⟩
  trans := fun h k => ⟨h.1.trans k.1, k.2 ∘ h.2⟩
  cover := (·.1.cover)
  enter := fun s => ⟨(returns_kept adjacency).enter s,
    fun h => ⟨h.cover, h.size, h.best, h.bestSize⟩⟩
  record := fun s _ => ⟨record_returns s, Sound.record⟩
  cut := fun s => ⟨(returns_kept adjacency).cut s,
    fun h => ⟨h.cover, h.size, h.best, h.bestSize⟩⟩
  around := by
    intro s t v hv free ⟨returns, keeps⟩
    have back := reinstate_returns hv returns
    refine ⟨back, fun h => ?_⟩
    have below := keeps (h.exclude both hv free)
    refine ⟨?_, ?_, below.best, below.bestSize⟩
    · rw [back.cover]; exact h.cover
    · rw [back.cover, back.size]; exact h.size

theorem sweep_sound (both : Undirected adjacency) (nodup : candidates.Nodup)
    (present : Present candidates s) (h : Sound adjacency s) :
    Sound adjacency (sweep adjacency bounded candidates s) :=
  ((sound_kept both).sweep nodup present).2 h

/-! ## No cover is missed -/

/-- The search may stop, or it holds a cover of at most the given size. -/
def Settled (s : State) (size : Int) : Prop := s.targetMet = true ∨ s.bestSize ≤ size

theorem Settled.mono {a b : Int} (h : Settled s a) (le : a ≤ b) : Settled s b :=
  h.imp_right (Int.le_trans · le)

theorem Returns.targetMet (h : Returns s t) (met : s.targetMet = true) : t.targetMet = true := by
  unfold State.targetMet at met ⊢
  rw [h.target]
  cases hs : s.target with
  | none => simp [hs] at met
  | some target =>
    simp only [hs, decide_eq_true_eq] at met ⊢
    exact Int.le_trans h.bestSize met

theorem Settled.of_returns {a : Int} (h : Settled s a) (k : Returns s t) : Settled t a :=
  h.imp k.targetMet (Int.le_trans k.bestSize)

theorem record_settles (s : State) : Settled s.record s.size := by
  right
  rw [record_bestSize]
  omega

/-- Vertices that are not kept have only kept neighbours, and these are in the cover. -/
def Spared (adjacency : List (List Nat)) (keep : Nat → Bool) (cover : List Bool) : Prop :=
  ∀ v, keep v = false → ∀ u ∈ around adjacency v, keep u = true ∧ flag cover u = true

theorem Spared.free {keep : Nat → Bool} {cover : List Bool} (h : Spared adjacency keep cover)
    (hv : keep v = false) : exposes adjacency cover v = false := by
  refine exposes_eq_false_iff.mpr fun u hu => ?_
  obtain ⟨kept, covered⟩ := h v hv u hu
  refine ⟨?_, covered⟩
  rintro rfl
  simp [hv] at kept

theorem Spared.set_false {keep : Nat → Bool} {cover : List Bool}
    (h : Spared adjacency keep cover) (hv : keep v = false) :
    Spared adjacency keep (cover.set v false) := by
  intro w hw u hu
  obtain ⟨kept, covered⟩ := h w hw u hu
  have other : u ≠ v := by
    rintro rfl
    simp [hv] at kept
  simp [flag_set_false, kept, covered, other]

theorem descend_settles {size : Int} (le : s.size - rest.length ≤ size)
    (below : rest ≠ [] → Settled (sweep adjacency bounded rest s) size) :
    Settled (descend adjacency bounded rest s) size := by
  unfold descend
  split
  · rename_i empty
    have := List.isEmpty_iff.mp empty
    subst this
    exact (record_settles s).mono (by simpa using le)
  · rename_i more
    split
    · rename_i cut
      have hopeless : s.bestSize ≤ s.size - rest.length := by
        simpa [State.hopeless] using (Bool.and_eq_true_iff.mp cut).2
      exact .inr (Int.le_trans hopeless le)
    · exact below (by simpa using more)

theorem visit_settles_free {size : Int} (free : exposes adjacency s.cover v = false)
    (le : s.size - 1 - rest.length ≤ size)
    (below : rest ≠ [] → Settled (sweep adjacency bounded rest (s.enter.exclude v)) size) :
    Settled (visit adjacency bounded v rest s) size := by
  unfold visit
  split
  · rename_i met
    exact .inl met
  · rw [if_neg (by simp [free])]
    exact descend_settles (s := s.enter.exclude v) le below

theorem visit_settles (below : rest ≠ [] →
      Settled (sweep adjacency bounded rest (s.enter.exclude v)) (s.size - 1)) :
    Settled (visit adjacency bounded v rest s) s.size := by
  cases free : exposes adjacency s.cover v with
  | false =>
    exact visit_settles_free free (by omega) fun more => (below more).mono (by omega)
  | true =>
    unfold visit
    split
    · rename_i met
      exact .inl met
    · exact record_settles s.enter

/-- A sweep over some candidates settles every choice of candidates that can be left out together:
it ends with a cover as small as the one that leaves them out, or it has met its target. -/
theorem sweep_settles {keep : Nat → Bool} (nodup : candidates.Nodup)
    (present : Present candidates s) (spared : Spared adjacency keep s.cover)
    (nonempty : candidates ≠ []) : Settled (sweep adjacency bounded candidates s)
      (s.size - (candidates.filter fun v => !keep v).length) := by
  induction candidates generalizing s keep with
  | nil => exact absurd rfl nonempty
  | cons v rest ih =>
    obtain ⟨fresh, nodup⟩ := List.nodup_cons.mp nodup
    have inner : Present rest (s.enter.exclude v) := Present.exclude (s := s.enter) present fresh
    have visited : Returns s (visit adjacency bounded v rest s) :=
      (returns_kept adjacency).visit (present v List.mem_cons_self) (sweep_returns nodup inner)
    have later : Present rest (visit adjacency bounded v rest s) := present.tail visited.cover
    have left : (rest.filter fun v => !keep v).length ≤ rest.length := List.length_filter_le _ _
    rw [sweep_cons]
    cases hv : keep v with
    | true =>
      -- The candidate stays. Below it, keeping all of the rest settles the explored cover.
      have here : Settled (visit adjacency bounded v rest s) s.size := by
        apply visit_settles
        intro more
        have all : Spared adjacency (fun _ => true) (s.enter.exclude v).cover := by
          intro u hu
          cases hu
        simpa [State.exclude, State.enter] using ih nodup inner all more
      simp only [List.filter_cons, hv, Bool.not_true, Bool.false_eq_true, ↓reduceIte]
      by_cases more : rest = []
      · subst more
        simpa [sweep] using here
      · rw [← visited.size]
        exact ih nodup later (visited.cover ▸ spared) more
    | false =>
      have free := spared.free hv
      have here : Settled (visit adjacency bounded v rest s)
          (s.size - 1 - (rest.filter fun v => !keep v).length) := by
        apply visit_settles_free free (by omega)
        intro more
        exact ih nodup inner (spared.set_false hv) more
      simp only [List.filter_cons, hv, Bool.not_false, ↓reduceIte, List.length_cons]
      exact (here.of_returns (sweep_returns nodup later)).mono (by omega)

end VertexCover.Search
