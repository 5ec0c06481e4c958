import VertexCover.Proofs.Graph.Order
import VertexCover.Proofs.Search.Target

/-!
# Which of the smallest covers is found

Vertices are taken out in ascending order and a cover is replaced only by a smaller one. So among
covers of one size the search comes first to the one that leaves out the earlier vertices, and keeps
it.

* `Below`: the covers that a sweep can reach by taking out candidates;
* `Favours`: none of them with the best size comes before the best one;
* `sweep_tied`: a sweep keeps that, by the order in which it explores the covers;
* `select_best_precedes`, `minimumCover_last`: what follows for the minimum search of a graph;
* `length_le_without_best`, `without_best_precedes`: what follows for the nodes that are left out.
-/

namespace VertexCover

namespace Search

variable {adjacency : List (List Nat)} {bounded : Bool} {candidates rest : List Nat} {v : Nat}
  {cover flags : List Bool} {s t u : State}

theorem eq_of_flag {a b : List Bool} (length : a.length = b.length)
    (same : ∀ v, flag a v = flag b v) : a = b := by
  apply List.ext_getElem length
  intro i ha hb
  simpa [flag, List.getElem?_eq_getElem ha, List.getElem?_eq_getElem hb] using same i

/-! ## Covers below a cover -/

/-- The flags differ from those of the cover at candidates only. -/
structure Below (cover : List Bool) (candidates : List Nat) (flags : List Bool) : Prop where
  length : flags.length = cover.length
  same : ∀ v, v ∉ candidates → flag flags v = flag cover v

theorem Below.refl (cover : List Bool) (candidates : List Nat) : Below cover candidates cover :=
  ⟨rfl, fun _ _ => rfl⟩

theorem Below.cons (h : Below cover rest flags) : Below cover (v :: rest) flags :=
  ⟨h.length, fun u hu => h.same u fun hr => hu (List.mem_cons_of_mem _ hr)⟩

/-- The candidate stays. -/
theorem Below.kept (h : Below cover (v :: rest) flags) (same : flag flags v = flag cover v) :
    Below cover rest flags where
  length := h.length
  same := by
    intro u hu
    by_cases huv : u = v
    · rw [huv, same]
    · exact h.same u (by simp [huv, hu])

/-- The candidate is taken out. -/
theorem Below.excluded (h : Below cover (v :: rest) flags) (out : flag flags v = false) :
    Below (cover.set v false) rest flags where
  length := by rw [List.length_set, h.length]
  same := by
    intro u hu
    rw [flag_set_false]
    by_cases huv : u = v
    · simp [huv, out]
    · simp [huv, h.same u (by simp [huv, hu])]

theorem Below.of_excluded (h : Below (cover.set v false) rest flags) :
    Below cover (v :: rest) flags where
  length := by rw [h.length, List.length_set]
  same := by
    intro u hu
    rw [List.mem_cons, not_or] at hu
    simp [h.same u hu.2, flag_set_false, hu.1]

/-- The vertices that are taken out account for the difference in size. -/
theorem Below.total (h : Below cover candidates flags) (nodup : candidates.Nodup)
    (present : ∀ v ∈ candidates, flag cover v = true) :
    count flags + (candidates.filter fun v => !flag flags v).length =
      count cover := by
  induction candidates generalizing cover with
  | nil =>
    have same : flags = cover := eq_of_flag h.length fun v => h.same v (by simp)
    simp [same]
  | cons v rest ih =>
    obtain ⟨fresh, nodup⟩ := List.nodup_cons.mp nodup
    have hv := present v List.mem_cons_self
    cases out : flag flags v with
    | true =>
      have rest := ih (h.kept (out.trans hv.symm)) nodup fun u hu =>
        present u (List.mem_cons_of_mem _ hu)
      simpa [out] using rest
    | false =>
      have rest := ih (h.excluded out) nodup fun u hu => by
        have other : u ≠ v := fun same => fresh (same ▸ hu)
        simp [flag_set_false, other, present u (List.mem_cons_of_mem _ hu)]
      have fewer := count_set_false hv
      simp only [List.filter_cons, out, Bool.not_false, ↓reduceIte, List.length_cons]
      omega

/-- A cover of the same size takes nothing out. -/
theorem Below.eq_of_count (h : Below cover candidates flags) (nodup : candidates.Nodup)
    (present : ∀ v ∈ candidates, flag cover v = true)
    (size : count flags = count cover) : flags = cover := by
  have total := h.total nodup present
  have none : candidates.filter (fun v => !flag flags v) = [] :=
    List.eq_nil_of_length_eq_zero (by omega)
  refine eq_of_flag h.length fun v => ?_
  by_cases hv : v ∈ candidates
  · have kept := List.filter_eq_nil_iff.mp none v hv
    rw [present v hv]
    simpa using kept
  · exact h.same v hv

theorem Below.spared (h : Below cover candidates flags) (covers : Covers adjacency flags)
    (present : ∀ v ∈ candidates, flag cover v = true) : Spared adjacency (flag flags) cover := by
  intro v out u hu
  have kept : flag flags u = true := covers.flag_of_out out hu
  refine ⟨kept, ?_⟩
  by_cases hc : u ∈ candidates
  · exact present u hc
  · rw [← h.same u hc, kept]

/-- A cover below that takes out the visited vertex is no smaller than what the visit leaves as the
best one. -/
theorem visit_le_count (both : Undirected adjacency) (nodup : (v :: rest).Nodup)
    (present : Present (v :: rest) s) (sound : Sound adjacency s) (endless : s.target = none)
    (h : Below s.cover (v :: rest) flags) (covers : Covers adjacency flags)
    (out : flag flags v = false) :
    (visit adjacency bounded v rest s).bestSize ≤ count flags := by
  have visited : Advances s (visit adjacency bounded v rest s) := visit_advances nodup present
  obtain ⟨fresh, nodup⟩ := List.nodup_cons.mp nodup
  have free := (h.spared covers present).free out
  have inner : Present rest (s.enter.exclude v) := Present.exclude (s := s.enter) present fresh
  have below : Below (s.enter.exclude v).cover rest flags := h.excluded out
  have size : (s.enter.exclude v).size = count (s.enter.exclude v).cover :=
    (sound.exclude both (present v List.mem_cons_self) free).size
  have total := below.total nodup inner
  have left : (rest.filter fun v => !flag flags v).length ≤ rest.length :=
    List.length_filter_le _ _
  have settled : Settled (visit adjacency bounded v rest s) (count flags) := by
    refine visit_settles_free free ?_ fun more => ?_
    · simp only [State.exclude, State.enter] at size total
      omega
    · exact (sweep_settles nodup inner (below.spared covers inner) more).mono (by omega)
  rcases settled with met | le
  · simp [State.targetMet, visited.target, endless] at met
  · exact le

/-! ## The best cover comes first among its equals -/

/-- The first vertex on which the flags differ is out of the first cover and in the second. -/
def Before (a b : List Bool) : Prop :=
  ∃ v, (∀ u < v, flag a u = flag b u) ∧ flag a v = false ∧ flag b v = true

/-- Of the covers that can be reached and have the best size, the best one comes first. -/
def Favours (adjacency : List (List Nat)) (cover : List Bool) (candidates : List Nat)
    (s : State) : Prop :=
  ∀ flags, Below cover candidates flags → Covers adjacency flags → s.bestSize = count flags →
    flags = s.best ∨ Before s.best flags

/-- The second state has its best cover from the first one or from below it, and favours it. -/
structure Tied (adjacency : List (List Nat)) (candidates : List Nat) (s t : State) : Prop where
  origin : t.best = s.best ∨ Below s.cover candidates t.best
  favours : Favours adjacency s.cover candidates t

theorem Tied.of_enter (h : Tied adjacency candidates s.enter t) : Tied adjacency candidates s t :=
  ⟨h.origin, h.favours⟩

theorem record_tied (nodup : candidates.Nodup) (present : Present candidates s)
    (size : s.size = count s.cover) (h : Favours adjacency s.cover candidates s) :
    Tied adjacency candidates s s.record := by
  rcases Int.lt_or_le s.size s.bestSize with lt | le
  · rw [record_of_lt lt]
    refine ⟨.inr (.refl _ _), fun flags below _ (same : s.size = count flags) => .inl ?_⟩
    exact below.eq_of_count nodup present (by omega)
  · rw [record_of_le le]
    exact ⟨.inl rfl, h⟩

theorem descend_tied (nodup : rest.Nodup) (present : Present rest s)
    (size : s.size = count s.cover) (h : Favours adjacency s.cover rest s)
    (below : Tied adjacency rest s (sweep adjacency bounded rest s)) :
    Tied adjacency rest s (descend adjacency bounded rest s) := by
  unfold descend
  split
  · exact record_tied nodup present size h
  · split
    · exact ⟨.inl rfl, h⟩
    · exact below

/-- What is found below a vertex that is taken out comes before all covers that keep it. -/
theorem Tied.around (ascending : (v :: rest).Pairwise (· < ·))
    (sizes : s.bestSize = count s.best ∧ t.bestSize = count t.best)
    (h : Favours adjacency s.cover (v :: rest) s) (below : Tied adjacency rest (s.exclude v) t) :
    Tied adjacency (v :: rest) s (t.reinstate v) := by
  obtain ⟨later, _⟩ := List.pairwise_cons.mp ascending
  have fresh : v ∉ rest := fun hr => Nat.lt_irrefl v (later v hr)
  refine ⟨below.origin.imp_right Below.of_excluded, fun flags reach covers same => ?_⟩
  cases out : flag flags v with
  | false => exact below.favours flags (reach.excluded out) covers same
  | true =>
    have same : t.bestSize = count flags := same
    rcases below.origin with old | (new : Below (s.cover.set v false) rest t.best)
    · have old : t.best = s.best := old
      have unchanged : s.bestSize = count flags := by rw [← same, sizes.1, sizes.2, old]
      have first := h flags reach covers unchanged
      rwa [← old] at first
    · refine .inr ⟨v, fun u hu => ?_, ?_, out⟩
      · have earlier : u ∉ v :: rest := by
          intro listed
          rcases List.mem_cons.mp listed with same | hr
          · exact Nat.ne_of_lt hu same
          · exact Nat.lt_asymm hu (later u hr)
        exact (new.of_excluded.same u earlier).trans (reach.same u earlier).symm
      · exact (new.same v fresh).trans (by simp [flag_set_false])

/-- The covers that leave the visited vertex out are settled by the visit, those that keep it by what
comes after the visit. -/
theorem Tied.next (hv : flag s.cover v = true) (cover : t.cover = s.cover)
    (first : Tied adjacency (v :: rest) s t)
    (settled : ∀ flags, Below s.cover (v :: rest) flags → Covers adjacency flags →
      flag flags v = false → t.bestSize ≤ count flags)
    (onward : Advances t u) (last : Tied adjacency rest t u) :
    Tied adjacency (v :: rest) s u := by
  obtain ⟨origin, favours⟩ := last
  rw [cover] at origin favours
  refine ⟨?_, fun flags reach covers same => ?_⟩
  · rcases origin with old | new
    · rw [old]
      exact first.origin
    · exact .inr new.cons
  · cases out : flag flags v with
    | true => exact favours flags (reach.kept (out.trans hv.symm)) covers same
    | false =>
      -- A cover of this size was there after the visit, and nothing smaller came later.
      have le := settled flags reach covers out
      have smaller := onward.bestSize
      rw [onward.unbeaten (by omega)]
      exact first.favours flags reach covers (by omega)

theorem visit_tied (both : Undirected adjacency) (ascending : (v :: rest).Pairwise (· < ·))
    (present : Present (v :: rest) s) (sound : Sound adjacency s) (endless : s.target = none)
    (h : Favours adjacency s.cover (v :: rest) s)
    (below : exposes adjacency s.cover v = false →
      Favours adjacency (s.enter.exclude v).cover rest (s.enter.exclude v) →
      Tied adjacency rest (s.enter.exclude v)
        (sweep adjacency bounded rest (s.enter.exclude v))) :
    Tied adjacency (v :: rest) s (visit adjacency bounded v rest s) := by
  have nodup : (v :: rest).Nodup := ascending.imp Nat.ne_of_lt
  have hv := present v List.mem_cons_self
  have entered : Sound adjacency s.enter := ((sound_kept both).enter s).2 sound
  have unmet : s.targetMet = false := by simp [State.targetMet, endless]
  rw [visit, if_neg (by simp [unmet])]
  cases free : exposes adjacency s.cover v with
  | true =>
    rw [if_pos rfl]
    exact .of_enter (record_tied (s := s.enter) nodup present sound.size h)
  | false =>
    rw [if_neg (by simp)]
    obtain ⟨fresh, nodup⟩ := List.nodup_cons.mp nodup
    have inner : Present rest (s.enter.exclude v) := Present.exclude (s := s.enter) present fresh
    have inside : Sound adjacency (s.enter.exclude v) := entered.exclude both hv free
    have favours : Favours adjacency (s.enter.exclude v).cover rest (s.enter.exclude v) :=
      fun flags reach => h flags (Below.of_excluded reach)
    have tied : Tied adjacency rest (s.enter.exclude v)
        (descend adjacency bounded rest (s.enter.exclude v)) :=
      descend_tied nodup inner inside.size favours (below free favours)
    have found : Sound adjacency (descend adjacency bounded rest (s.enter.exclude v)) :=
      ((sound_kept both).descend (s := s.enter.exclude v) unmet
        ((sound_kept both).sweep nodup inner)).2 inside
    exact .of_enter (.around (s := s.enter) ascending ⟨sound.bestSize, found.bestSize⟩ h tied)

/-- A sweep without a target favours, among all covers below its start, the first one. -/
theorem sweep_tied (both : Undirected adjacency) (ascending : candidates.Pairwise (· < ·))
    (present : Present candidates s) (sound : Sound adjacency s) (endless : s.target = none)
    (h : Favours adjacency s.cover candidates s) :
    Tied adjacency candidates s (sweep adjacency bounded candidates s) := by
  induction candidates generalizing s with
  | nil => exact ⟨.inl rfl, h⟩
  | cons v rest ih =>
    have nodup : (v :: rest).Nodup := ascending.imp Nat.ne_of_lt
    obtain ⟨fresh, rest_nodup⟩ := List.nodup_cons.mp nodup
    have inner : Present rest (s.enter.exclude v) := Present.exclude (s := s.enter) present fresh
    have hv := present v List.mem_cons_self
    have first : Tied adjacency (v :: rest) s (visit adjacency bounded v rest s) := by
      refine visit_tied both ascending present sound endless h fun free favours => ?_
      exact ih ascending.of_cons inner
        ((((sound_kept both).enter s).2 sound).exclude both hv free) endless favours
    have visited : Advances s (visit adjacency bounded v rest s) := visit_advances nodup present
    have middle : Sound adjacency (visit adjacency bounded v rest s) :=
      ((sound_kept both).visit hv ((sound_kept both).sweep rest_nodup inner)).2 sound
    have later : Present rest (visit adjacency bounded v rest s) := present.tail visited.cover
    have last : Tied adjacency rest (visit adjacency bounded v rest s)
        (sweep adjacency bounded rest (visit adjacency bounded v rest s)) := by
      apply ih ascending.of_cons later middle (visited.target.trans endless)
      rw [visited.cover]
      exact fun flags reach => first.favours flags reach.cons
    rw [sweep_cons]
    refine .next hv visited.cover first ?_ (sweep_advances rest_nodup later) last
    exact fun flags reach covers out =>
      visit_le_count both nodup present sound endless reach covers out

end Search

namespace Graph
open Search

variable {g : Graph} {others : List Label}

theorem explore_favours (g : Graph) :
    Favours g.positions g.initialCover g.candidates (g.explore true none) := by
  have ascending : g.candidates.Pairwise (· < ·) :=
    List.pairwise_lt_range.sublist g.candidates_sublist
  have start : Favours g.positions g.initialCover g.candidates (.start g.initialCover none) := by
    intro flags reach _ (same : (count g.initialCover : Int) = count flags)
    exact .inl (reach.eq_of_count g.candidates_nodup (g.present_start none) (by omega))
  exact (sweep_tied g.undirected_positions ascending (g.present_start none) (g.sound_start none) rfl
    start).favours

/-- A smallest cover holds no isolated node, so the search can reach it. -/
theorem below_vector (h : g.IsVertexCover others)
    (size : others.length = (g.select (g.explore true none).best).length) :
    Below g.initialCover g.candidates (g.vector others) where
  length := by simp [vector, initialCover, positions]
  same := by
    intro v hv
    have isolated : around g.positions v = [] := by simpa [mem_candidates] using hv
    have out : flag g.initialCover v = false := by
      simpa [isolated] using (flag_initialCover (g := g) (v := v)).not
    rw [out]
    refine Bool.eq_false_iff.mpr fun member => ?_
    have free : exposes g.positions (g.vector others) v = false :=
      exposes_eq_false_iff.mpr (by simp [isolated])
    have smaller := isVertexCover_select
      ((covers_vector h).set_false g.undirected_positions free)
    have least := g.explore_least smaller
    rw [length_select (by simp [vector, order]), ← length_select_best, ← size,
      ← count_vector h.nodup h.nodes] at least
    have fewer := count_set_false member
    omega

/-- Of the covers with the size of the one that the search finds, every other one has the first node
on which the two differ. -/
theorem select_best_precedes (h : g.IsVertexCover others)
    (size : others.length = (g.select (g.explore true none).best).length)
    (differ : ∃ v, ¬ (v ∈ others ↔ v ∈ g.select (g.explore true none).best)) :
    g.Precedes others (g.select (g.explore true none).best) := by
  have same : (g.explore true none).bestSize = count (g.vector others) := by
    rw [count_vector h.nodup h.nodes, size, length_select_best]
  rcases g.explore_favours _ (below_vector h size) (covers_vector h) same with
    equal | ⟨i, before, out, member⟩
  · obtain ⟨v, hv⟩ := differ
    refine absurd ?_ hv
    rw [mem_select, ← equal]
    constructor
    · intro member
      obtain ⟨i, hi⟩ := List.mem_iff_getElem?.mp (h.nodes v member)
      exact ⟨i, hi, (flag_vector hi).mpr member⟩
    · rintro ⟨i, hi, set⟩
      exact (flag_vector hi).mp set
  · have inside : i < g.nodes.length := by simpa [vector] using lt_length_of_flag member
    have node : g.nodes[i]? = some g.nodes[i] := List.getElem?_eq_getElem inside
    refine ⟨g.nodes.take i, g.nodes[i], g.nodes.drop (i + 1), ?_, ?_, ?_, ?_⟩
    · rw [← List.drop_eq_getElem_cons inside, List.take_append_drop]
    · intro u hu
      obtain ⟨j, hj⟩ := List.mem_iff_getElem?.mp hu
      rw [List.getElem?_take] at hj
      split at hj
      · rename_i earlier
        rw [← flag_vector hj, mem_select_of_getElem? hj, before j earlier]
      · cases hj
    · exact (flag_vector node).mp member
    · rw [mem_select_of_getElem? node, out]
      exact Bool.false_ne_true

/-! ## What the answer leaves out

For sets of nodes outside which there is a vertex cover, the order of sizes and the order of places
are turned round. -/

theorem length_le_without_best (nodup : others.Nodup) (nodes : ∀ v ∈ others, v ∈ g.nodes)
    (cover : g.IsVertexCover (g.without others)) :
    others.length ≤ (g.without (g.select (g.explore true none).best)).length := by
  have best := g.isMinimumCover_select_best
  have least := best.least _ cover
  have outside := length_without nodup nodes
  have inside := length_without best.nodup best.nodes
  omega

/-- The last of the smallest covers leaves out the first of the largest sets. -/
theorem without_best_precedes (nodup : others.Nodup) (nodes : ∀ v ∈ others, v ∈ g.nodes)
    (cover : g.IsVertexCover (g.without others))
    (size : others.length = (g.without (g.select (g.explore true none).best)).length)
    (differ : ∃ v, ¬ (v ∈ others ↔ v ∈ g.without (g.select (g.explore true none).best))) :
    g.Precedes (g.without (g.select (g.explore true none).best)) others := by
  have best := g.isMinimumCover_select_best
  have same : (g.without others).length = (g.select (g.explore true none).best).length := by
    have outside := length_without nodup nodes
    have inside := length_without best.nodup best.nodes
    omega
  have differ : ∃ v, ¬ (v ∈ g.without others ↔ v ∈ g.select (g.explore true none).best) := by
    obtain ⟨v, hv⟩ := differ
    refine ⟨v, fun same => hv ?_⟩
    by_cases node : v ∈ g.nodes
    · rw [mem_without, ← same, ← mem_without, mem_without_without node]
    · exact iff_of_false (fun hm => node (nodes v hm)) fun out => node (mem_without.mp out).1
  have last := select_best_precedes cover same differ
  exact last.without.congr fun v node => mem_without_without node

/-- **Ties of the minimum search.** Let another vertex cover have as many nodes as the one that is
returned. The first node on which the two differ belongs to the other one. So the answer is the last
of the covers of its size in the lexicographic order of positions, and the nodes that it leaves out
come first. -/
theorem minimumCover_last (g : Graph) (repair : Bool) (others : List Label)
    (cover : g.IsVertexCover others)
    (size : others.length = (g.minimumCover repair).members.length)
    (differ : ∃ v, ¬ (v ∈ others ↔ v ∈ (g.minimumCover repair).members)) :
    g.Precedes others (g.minimumCover repair).members ∧
    g.places others < g.places (g.minimumCover repair).members ∧
    g.places (g.without (g.minimumCover repair).members) < g.places (g.without others) := by
  rw [members_minimumCover] at size differ ⊢
  have answer := g.isMinimumCover_select_best.toIsVertexCover
  have first := select_best_precedes cover size differ
  refine ⟨first, places_lt first ?_, places_lt first.without ?_⟩
  · rw [length_places cover.nodup cover.nodes, length_places answer.nodup answer.nodes, size]
  · have left := length_without cover.nodup cover.nodes
    have right := length_without answer.nodup answer.nodes
    rw [length_places (g.without_nodup _) fun _ hv => (mem_without.mp hv).1,
      length_places (g.without_nodup _) fun _ hv => (mem_without.mp hv).1]
    omega

/-- On the path `0 - 1 - 2 - 3` the cover `{1, 2}` is as small as the answer `{1, 3}`, and node `2`
is the first on which they differ. -/
theorem minimumCover_last_path : ∃ g : Graph, g.nodes = Label.upTo 4 ∧
    g.edges = [(.int 2, .int 3), (.int 1, .int 2), (.int 0, .int 1)] ∧
    (g.minimumCover true).members = [.int 1, .int 3] ∧ g.IsVertexCover [.int 1, .int 2] ∧
    g.Precedes [.int 1, .int 2] [.int 1, .int 3] ∧
    g.places [.int 1, .int 2] < g.places [.int 1, .int 3] := by
  let g := (Graph.empty 4).insertEdges [(.int 0, .int 1), (.int 1, .int 2), (.int 2, .int 3)]
  have edges : g.edges = [(.int 2, .int 3), (.int 1, .int 2), (.int 0, .int 1)] := by decide
  have answer : (g.minimumCover true).members = [.int 1, .int 3] := by decide
  have cover : g.IsVertexCover [.int 1, .int 2] := by
    refine ⟨by decide, by decide, fun u v adj => ?_⟩
    simp only [adj_iff, edges, List.mem_cons, Prod.mk.injEq] at adj
    grind
  have differ : ∃ v, ¬ (v ∈ [Label.int 1, .int 2] ↔ v ∈ (g.minimumCover true).members) :=
    ⟨.int 2, by rw [answer]; decide⟩
  have last := minimumCover_last g true _ cover (by rw [answer]; rfl) differ
  rw [answer] at last
  exact ⟨g, by decide, edges, answer, cover, last.1, last.2.1⟩

end Graph

end VertexCover
