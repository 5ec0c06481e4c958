import VertexCover.Proofs.Search.Repair
import VertexCover.Proofs.Search.Run

/-!
# The searches find optimal covers

The search of a graph starts from the cover of all nodes with an edge. A run without a target ends
with a smallest cover, which the repair pass leaves as it is. A run with a target ends with a cover
within the target if there is one, and else with a smallest cover.

* `explore_sound`, `explore_settles`: what the invariants of a run say about a graph;
* `minimumCover_exact`: the minimum search is exact, with and without repair;
* `minimum_unrepaired`: a searcher gives the same replies and counters with and without repair;
* `coverAtMost_contract`: what the bounded search promises for every bound.
-/

namespace VertexCover

namespace Graph
open Search

variable {g : Graph}

/-! ## The start of a search -/

theorem candidates_sublist (g : Graph) : g.candidates.Sublist (List.range g.order) := by
  have all : g.positions.zipIdx.map Prod.snd = List.range g.order := by
    rw [List.zipIdx_map_snd, length_positions, List.range_eq_range']
  rw [← all]
  exact List.filter_sublist.map _

theorem candidates_nodup (g : Graph) : g.candidates.Nodup :=
  List.nodup_range.sublist g.candidates_sublist

theorem mem_candidates {v : Nat} : v ∈ g.candidates ↔ around g.positions v ≠ [] := by
  simp only [candidates, List.mem_map, List.mem_filter, List.mem_zipIdx_iff_getElem?, around]
  constructor
  · rintro ⟨⟨list, i⟩, ⟨listed, nonempty⟩, rfl⟩
    simpa [listed] using nonempty
  · intro nonempty
    cases listed : g.positions[v]? with
    | none => simp [listed] at nonempty
    | some list => exact ⟨(list, v), ⟨listed, by simpa [listed] using nonempty⟩, rfl⟩

theorem flag_initialCover {v : Nat} :
    flag g.initialCover v = true ↔ around g.positions v ≠ [] := by
  simp only [flag, initialCover, List.getElem?_map, around]
  cases g.positions[v]? <;> simp

theorem count_initialCover (g : Graph) : count g.initialCover = g.candidates.length := by
  have listed : g.positions.zipIdx.map Prod.fst = g.positions := List.zipIdx_map_fst 0 _
  rw [count, initialCover, candidates, List.length_map, ← List.countP_eq_length_filter]
  conv_lhs => rw [← listed, List.map_map, List.countP_map]
  rfl

theorem proper_initialCover (g : Graph) : Proper g.positions g.initialCover where
  length := by simp [initialCover]
  covers := by
    intro v u hu
    exact .inl (flag_initialCover.mpr (List.ne_nil_of_mem hu))
  touched := fun _ => flag_initialCover.mp

theorem sound_start (g : Graph) (target : Option Int) :
    Sound g.positions (.start g.initialCover target) :=
  ⟨g.proper_initialCover, rfl, g.proper_initialCover, rfl⟩

theorem present_start (g : Graph) (target : Option Int) :
    Present g.candidates (.start g.initialCover target) :=
  fun _ hv => flag_initialCover.mpr (mem_candidates.mp hv)

/-! ## The end of a search -/

theorem explore_sound (g : Graph) (bounded : Bool) (target : Option Int) :
    Sound g.positions (g.explore bounded target) :=
  sweep_sound g.undirected_positions g.candidates_nodup (g.present_start target)
    (g.sound_start target)

theorem explore_target (g : Graph) (bounded : Bool) (target : Option Int) :
    (g.explore bounded target).target = target :=
  (sweep_returns g.candidates_nodup (g.present_start target)).target

/-- The nodes that a cover leaves out can be left out together. -/
theorem spared_vector {members : List Label} (h : g.IsVertexCover members) :
    Spared g.positions (flag (g.vector members)) g.initialCover := by
  intro v hv u hu
  have met := (covers_vector h).flag_of_out hv hu
  exact ⟨met, flag_initialCover.mpr (List.ne_nil_of_mem (g.undirected_positions v u hu))⟩

/-- A finished search holds a cover as small as any, unless it stopped at its target. -/
theorem explore_settles (bounded : Bool) (target : Option Int) {members : List Label}
    (h : g.IsVertexCover members) : Settled (g.explore bounded target) members.length := by
  let keep := flag (g.vector members)
  have kept : (g.candidates.filter keep).length ≤ members.length := by
    rw [← count_vector h.nodup h.nodes]
    exact length_le_count (g.candidates_nodup.filter _) fun v hv => (List.mem_filter.mp hv).2
  have split : g.candidates.length =
      (g.candidates.filter keep).length + (g.candidates.filter fun v => !keep v).length :=
    List.length_eq_length_filter_add keep
  have start : (State.start g.initialCover target).size = g.candidates.length := by
    rw [← count_initialCover]; rfl
  by_cases empty : g.candidates = []
  · right
    have unchanged : (g.explore bounded target).bestSize = count g.initialCover := by
      rw [explore, empty]; rfl
    rw [unchanged, count_initialCover, empty]
    exact Int.natCast_nonneg _
  · have found : Settled (g.explore bounded target) ((State.start g.initialCover target).size -
        (g.candidates.filter fun v => !keep v).length) :=
      sweep_settles g.candidates_nodup (g.present_start target) (spared_vector h) empty
    exact found.mono (by omega)

theorem length_select_best (g : Graph) (bounded : Bool) (target : Option Int) :
    ((g.select (g.explore bounded target).best).length : Int) =
      (g.explore bounded target).bestSize := by
  have sound := g.explore_sound bounded target
  rw [sound.bestSize, length_select]
  rw [sound.best.length, length_positions]

/-! ## The minimum search -/

theorem explore_least (g : Graph) {members : List Label} (h : g.IsVertexCover members) :
    (g.explore true none).bestSize ≤ members.length := by
  rcases explore_settles true none h with met | le
  · simp [State.targetMet, explore_target] at met
  · exact le

theorem isMinimumCover_select_best (g : Graph) :
    g.IsMinimumCover (g.select (g.explore true none).best) where
  toIsVertexCover := isVertexCover_select (g.explore_sound true none).best.covers
  least := by
    intro others h
    have least := g.explore_least h
    rw [← length_select_best] at least
    exact Int.ofNat_le.mp least

theorem repair_explore (g : Graph) :
    repair g.positions (g.explore true none).best = (g.explore true none).best := by
  have sound := g.explore_sound true none
  apply repair_eq_self g.undirected_positions sound.best.covers
  intro others same covers
  have least := g.explore_least (isVertexCover_select covers)
  rw [length_select (by rw [same, sound.best.length, length_positions]), sound.bestSize] at least
  exact Int.ofNat_le.mp least

/-- The repair pass after a minimum search has nothing to do. -/
theorem minimumCover_eq (g : Graph) (repair : Bool) : g.minimumCover repair =
    ⟨g.select (g.explore true none).best, (g.explore true none).stats none⟩ := by
  cases repair with
  | false => rfl
  | true => simp only [minimumCover, ↓reduceIte, repair_explore]

theorem members_minimumCover (g : Graph) (repair : Bool) :
    (g.minimumCover repair).members = g.select (g.explore true none).best := by
  rw [minimumCover_eq]

/-- **The minimum search is exact.** Whether or not the repair pass follows, it returns a vertex
cover, and no vertex cover has fewer nodes. -/
theorem minimumCover_exact (g : Graph) (repair : Bool) :
    g.IsMinimumCover (g.minimumCover repair).members := by
  rw [members_minimumCover]
  exact g.isMinimumCover_select_best

theorem size_minimumCover (g : Graph) (repair : Bool) :
    (g.minimumCover repair).stats.size = (g.minimumCover repair).members.length := by
  rw [minimumCover_eq, length_select_best]
  rfl

end Graph

/-! ## With and without repair -/

namespace Searcher

/-- One request: the reply and the counters left behind do not depend on the repair pass. -/
theorem ask_repair (s : Searcher) (repair : Bool) (request : Request) :
    { s with repair }.ask request =
      ((s.ask request).1, { (s.ask request).2 with repair }) := by
  cases request with
  | minimum => simp only [ask, Graph.minimumCover_eq]
  | atMost k =>
    simp only [ask]
    cases s.graph.coverAtMost k <;> rfl
  | initial => rfl

/-- Requests in turn: the same replies, and the same counters after each of them. -/
theorem askAll_repair (s : Searcher) (repair : Bool) (requests : List Request) :
    { s with repair }.askAll requests =
      (s.askAll requests).map fun (reply, next) => (reply, { next with repair }) := by
  induction requests generalizing s with
  | nil => rfl
  | cons request requests ih =>
    rw [askAll, ask_repair, askAll, List.map_cons, ← ih]

/-- **The repair pass changes no minimum search.** The same set is found with it and without it. A
request for a smallest cover is answered by that set, listed without repetition, and the size among
the counters left behind, which is taken before the pass, is the number of its nodes. So two
searchers that differ in the pass give the same replies to any requests, with the same counters
after each. -/
theorem minimum_unrepaired (g : Graph) (latest : Option Stats) :
    (g.minimumCover true).members = (g.minimumCover false).members ∧
    (∀ repair, ∃ stats,
      (Searcher.mk g repair latest).ask .minimum =
        (.ok (.cover (g.minimumCover repair).members), ⟨g, repair, some stats⟩) ∧
      (g.minimumCover repair).members.Nodup ∧
      stats.size = (g.minimumCover repair).members.length) ∧
    ∀ requests, (Searcher.mk g true latest).askAll requests =
      ((Searcher.mk g false latest).askAll requests).map fun (reply, next) =>
        (reply, { next with repair := true }) := by
  refine ⟨by rw [Graph.minimumCover_eq, Graph.minimumCover_eq], fun repair => ?_, ?_⟩
  · refine ⟨_, rfl, ?_, g.size_minimumCover repair⟩
    rw [Graph.members_minimumCover]
    exact g.nodup.sublist (g.select_sublist _)
  · exact (Searcher.mk g false latest).askAll_repair true

end Searcher

namespace Graph
open Search

variable {g : Graph}

/-! ## The bounded search -/

theorem boundedCover_isVertexCover (g : Graph) (k : Int) :
    g.IsVertexCover (g.boundedCover k).members :=
  isVertexCover_select (g.explore_sound true (some k)).best.covers

/-- The bounded search finds a cover within the bound, or one as small as any. -/
theorem boundedCover_small {members : List Label} (k : Int) (h : g.IsVertexCover members) :
    ((g.boundedCover k).members.length : Int) ≤ k ∨
      (g.boundedCover k).members.length ≤ members.length := by
  have size : ((g.boundedCover k).members.length : Int) = (g.explore true (some k)).bestSize :=
    g.length_select_best true (some k)
  rcases explore_settles true (some k) h with met | le
  · left
    simpa [State.targetMet, explore_target, size] using met
  · right
    rw [← size] at le
    exact Int.ofNat_le.mp le

theorem touched_select {flags : List Bool} (h : Proper g.positions flags) {v : Label}
    (hv : v ∈ g.select flags) : ∃ u, g.Adj v u := by
  obtain ⟨i, hi, set⟩ := mem_select.mp hv
  obtain ⟨j, hj⟩ := List.exists_mem_of_ne_nil _ (h.touched i set)
  obtain ⟨w, u, hw, _, adj⟩ := mem_positions.mp hj
  exact ⟨u, Option.some.inj (hi.symm.trans hw) ▸ adj⟩

theorem boundedCover_touched {k : Int} {v : Label} (h : v ∈ (g.boundedCover k).members) :
    ∃ u, g.Adj v u := touched_select (g.explore_sound true (some k)).best h

/-- **The bounded search.** It refuses exactly the negative bounds. For every other bound it returns
a vertex cover that holds every node with a loop and no isolated node; the cover is within the bound
exactly if some vertex cover is, and if none is, then it is a smallest one. -/
theorem coverAtMost_contract (g : Graph) (k : Int) :
    (∀ fault, g.coverAtMost k = .error fault ↔ k < 0 ∧ fault = .negativeBound k) ∧
    (0 ≤ k → ∃ found, g.coverAtMost k = .ok found ∧ g.IsVertexCover found.members ∧
      (∀ v, g.Adj v v → v ∈ found.members) ∧
      (∀ v ∈ found.members, ∃ u, g.Adj v u) ∧
      ((found.members.length : Int) ≤ k ↔ g.HasCoverAtMost k) ∧
      (¬ g.HasCoverAtMost k → g.IsMinimumCover found.members)) := by
  constructor
  · intro fault
    unfold coverAtMost
    split
    · rename_i negative
      simp [negative, eq_comm]
    · rename_i allowed
      simp [allowed]
  · intro allowed
    have cover := g.boundedCover_isVertexCover k
    refine ⟨g.boundedCover k, if_neg (by omega), cover, ?_, fun v => boundedCover_touched, ?_, ?_⟩
    · intro v loop
      exact (cover.meets v v loop).elim id id
    · constructor
      · exact fun within => ⟨_, cover, within⟩
      · rintro ⟨members, h, within⟩
        rcases boundedCover_small k h with le | le
        · exact le
        · omega
    · intro beyond
      refine ⟨cover, fun others h => ?_⟩
      exact (boundedCover_small k h).resolve_left fun within => beyond ⟨_, cover, within⟩

end Graph

end VertexCover
