import VertexCover.Proofs.Check
import VertexCover.Proofs.Search.Ties

/-!
# The exhaustive search

Sets of nodes are tried by size, and those of one size in the order in which their nodes come first.
So the exhaustive search finds the first of the smallest covers, where the search by exclusions finds
the last.

* `Chooses`: what a search through the sublists of a list may answer;
* `Chooses.cons`: the sublists with the first item come before those without it;
* `firstChoice_chooses`: the choices of `k` items, none left out;
* `firstCover_isFirst`: the sizes from zero on;
* `exhaustiveCover_first`: the two searches side by side.
-/

namespace VertexCover.Graph

variable {g : Graph} {items rest picked others : List Label} {v : Label}
  {fits : List Label → Prop}

/-! ## Choices from a list -/

/-- The sublist fits, and any other sublist that fits differs from it first at an item that it has
and the other one has not. -/
structure IsFirst (items : List Label) (fits : List Label → Prop) (picked : List Label) : Prop where
  sub : picked.Sublist items
  fit : fits picked
  first : ∀ others, others.Sublist items → fits others → others ≠ picked →
    ∃ before v after, items = before ++ v :: after ∧ (∀ u ∈ before, u ∈ picked ↔ u ∈ others) ∧
      v ∈ picked ∧ v ∉ others

/-- The answer is the first sublist that fits; there is none only if no sublist does. -/
def Chooses (items : List Label) (fits : List Label → Prop) : Option (List Label) → Prop
  | none => ∀ others, others.Sublist items → ¬ fits others
  | some picked => IsFirst items fits picked

/-- An item taken first stays first. -/
theorem IsFirst.cons (nodup : (v :: rest).Nodup) (h : IsFirst rest (fun p => fits (v :: p)) picked) :
    IsFirst (v :: rest) fits (v :: picked) where
  sub := h.sub.cons_cons v
  fit := h.fit
  first := by
    obtain ⟨fresh, _⟩ := List.nodup_cons.mp nodup
    intro others sub other differ
    cases sub with
    | cons _ sub =>
      -- The other sublist leaves the item out, so they differ at once.
      exact ⟨[], v, rest, rfl, by simp, List.mem_cons_self, fun member => fresh (sub.subset member)⟩
    | @cons_cons others _ _ sub =>
      have differ : others ≠ picked := fun same => differ (same ▸ rfl)
      obtain ⟨before, w, after, split, same, inside, outside⟩ := h.first others sub other differ
      have late : w ≠ v := by
        rintro rfl
        exact fresh (by simp [split])
      refine ⟨v :: before, w, after, by rw [split]; rfl, ?_, List.mem_cons_of_mem v inside, ?_⟩
      · intro u hu
        rcases List.mem_cons.mp hu with rfl | hu
        · simp
        · rw [List.mem_cons, List.mem_cons, same u hu]
      · intro member
        exact outside ((List.mem_cons.mp member).resolve_left late)

/-- If nothing that has the first item fits, the search goes on after it. -/
theorem IsFirst.skip (nodup : (v :: rest).Nodup)
    (none : ∀ others, others.Sublist rest → ¬ fits (v :: others)) (h : IsFirst rest fits picked) :
    IsFirst (v :: rest) fits picked where
  sub := h.sub.cons v
  fit := h.fit
  first := by
    obtain ⟨fresh, _⟩ := List.nodup_cons.mp nodup
    intro others sub other differ
    cases sub with
    | cons _ sub =>
      obtain ⟨before, w, after, split, same, inside, outside⟩ := h.first others sub other differ
      refine ⟨v :: before, w, after, by rw [split]; rfl, ?_, inside, outside⟩
      intro u hu
      rcases List.mem_cons.mp hu with rfl | hu
      · exact iff_of_false (fun member => fresh (h.sub.subset member))
          fun member => fresh (sub.subset member)
      · exact same u hu
    | cons_cons _ sub => exact absurd other (none _ sub)

/-- The sublists that have the first item are tried before those that leave it out. -/
theorem Chooses.cons {here later : Option (List Label)} (nodup : (v :: rest).Nodup)
    (with_item : Chooses rest (fun p => fits (v :: p)) here) (without : Chooses rest fits later) :
    Chooses (v :: rest) fits ((here.map (v :: ·)).or later) := by
  cases here with
  | some picked => exact IsFirst.cons nodup with_item
  | none =>
    cases later with
    | some picked => exact IsFirst.skip nodup with_item without
    | none =>
      intro others sub
      cases sub with
      | cons _ sub => exact without others sub
      | cons_cons _ sub => exact with_item _ sub

/-- With nothing more to take, only what has been taken can be accepted. -/
theorem chooses_zero (accept : List Label → Bool) (taken items : List Label) :
    Chooses items (fun p => p.length = 0 ∧ accept (taken ++ p) = true)
      (if accept taken then some [] else none) := by
  have only {others : List Label} (length : others.length = 0) : others = [] :=
    List.length_eq_zero_iff.mp length
  split
  · rename_i accepted
    refine ⟨List.nil_sublist _, by simp [accepted], ?_⟩
    rintro others _ ⟨length, _⟩ differ
    exact absurd (only length) differ
  · rename_i refused
    rintro others _ ⟨length, accepted⟩
    rw [only length, List.append_nil] at accepted
    exact refused accepted

theorem firstChoice_zero (accept : List Label → Bool) (taken items : List Label) :
    firstChoice accept taken 0 items =
      (if accept taken.reverse then some [] else none).map (taken.reverse ++ ·) := by
  have start : firstChoice accept taken 0 items =
      if accept taken.reverse then some taken.reverse else none := by
    cases items <;> rw [firstChoice]
  rw [start]
  split <;> simp

/-- **All choices of `k` items are tried, in their order.** -/
theorem firstChoice_chooses (accept : List Label → Bool) (nodup : items.Nodup)
    (taken : List Label) (k : Nat) :
    ∃ answer, firstChoice accept taken k items = answer.map (taken.reverse ++ ·) ∧
      Chooses items (fun p => p.length = k ∧ accept (taken.reverse ++ p) = true) answer := by
  induction items generalizing taken k with
  | nil =>
    cases k with
    | zero => exact ⟨_, firstChoice_zero accept taken _, chooses_zero accept _ _⟩
    | succ k =>
      refine ⟨none, rfl, ?_⟩
      rintro others sub ⟨length, _⟩
      simp [List.sublist_nil.mp sub] at length
  | cons v rest ih =>
    obtain ⟨_, later⟩ := List.nodup_cons.mp nodup
    cases k with
    | zero => exact ⟨_, firstChoice_zero accept taken _, chooses_zero accept _ _⟩
    | succ k =>
      obtain ⟨here, found, chooses⟩ := ih later (v :: taken) k
      obtain ⟨next, passed, chooses_next⟩ := ih later taken (k + 1)
      refine ⟨(here.map (v :: ·)).or next, ?_, Chooses.cons nodup ?_ chooses_next⟩
      · rw [firstChoice, found, passed]
        cases here <;> simp
      · simpa using chooses

/-! ## The first cover -/

/-- The labels in the order of the nodes. -/
def inOrder (g : Graph) (members : List Label) : List Label := g.nodes.filter (members.contains ·)

theorem mem_inOrder {members : List Label} (nodes : ∀ v ∈ members, v ∈ g.nodes) :
    v ∈ g.inOrder members ↔ v ∈ members := by
  simp only [inOrder, List.mem_filter, List.contains_iff_mem]
  exact ⟨And.right, fun member => ⟨nodes v member, member⟩⟩

theorem isCover_inOrder {members : List Label} (cover : g.IsVertexCover members) :
    g.isCover (g.inOrder members) = true := by
  rw [isCover_iff]
  intro u v adj
  rw [mem_inOrder cover.nodes, mem_inOrder cover.nodes]
  exact cover.meets u v adj

theorem isVertexCover_of_sublist (sub : picked.Sublist g.nodes) (cover : g.isCover picked = true) :
    g.IsVertexCover picked where
  nodup := g.nodup.sublist sub
  nodes := fun _ member => sub.subset member
  meets := isCover_iff.mp cover

/-- No set that is smaller than a smallest cover is accepted, and of its size the first cover is. -/
theorem firstCover_isFirst {least : List Label} (h : g.IsMinimumCover least) :
    IsFirst g.nodes (fun p => p.length = least.length ∧ g.isCover p = true) g.firstCover := by
  have below (k : Nat) (small : k < least.length) : firstChoice g.isCover [] k g.nodes = none := by
    obtain ⟨answer, found, chooses⟩ := firstChoice_chooses g.isCover g.nodup [] k
    cases answer with
    | none => exact found
    | some picked =>
      obtain ⟨length, cover⟩ := chooses.fit
      have size := h.least picked (isVertexCover_of_sublist chooses.sub cover)
      omega
  obtain ⟨answer, found, chooses⟩ := firstChoice_chooses g.isCover g.nodup [] least.length
  have size : (g.inOrder least).length = least.length := length_filter_members h.nodup h.nodes
  cases answer with
  | none =>
    exact absurd ⟨size, isCover_inOrder h.toIsVertexCover⟩ (chooses _ List.filter_sublist)
  | some picked =>
    have within : least.length < g.order + 1 := by
      rw [← size, Nat.lt_succ_iff]
      exact List.length_filter_le _ _
    have reached : (List.range (g.order + 1)).findSome?
        (fun k => firstChoice g.isCover [] k g.nodes) = some picked := by
      rw [List.findSome?_eq_some_iff]
      refine ⟨List.range least.length, least.length,
        (List.range (g.order + 1)).drop (least.length + 1), ?_, found, ?_⟩
      · have inside : least.length < (List.range (g.order + 1)).length := by simpa using within
        have split := List.take_append_drop least.length (List.range (g.order + 1))
        rw [List.drop_eq_getElem_cons inside, List.take_range, Nat.min_eq_left (by omega)] at split
        simpa using split.symm
      · intro k hk
        exact below k (List.mem_range.mp hk)
    rw [firstCover, reached]
    exact chooses

/-- The first cover comes before every other cover of its size. -/
theorem firstCover_precedes (cover : g.IsVertexCover others)
    (size : others.length = g.firstCover.length)
    (differ : ∃ v, ¬ (v ∈ others ↔ v ∈ g.firstCover)) : g.Precedes g.firstCover others := by
  have first := firstCover_isFirst g.isMinimumCover_select_best
  have length : (g.inOrder others).length = others.length :=
    length_filter_members cover.nodup cover.nodes
  have other : g.inOrder others ≠ g.firstCover := by
    intro same
    obtain ⟨v, hv⟩ := differ
    rw [← same, mem_inOrder cover.nodes] at hv
    exact hv Iff.rfl
  have before : g.Precedes g.firstCover (g.inOrder others) :=
    first.first _ List.filter_sublist ⟨by rw [length, size, first.fit.1], isCover_inOrder cover⟩ other
  exact before.congr fun v _ => mem_inOrder cover.nodes

theorem isMinimumCover_firstCover (g : Graph) : g.IsMinimumCover g.firstCover := by
  have first := firstCover_isFirst g.isMinimumCover_select_best
  refine ⟨isVertexCover_of_sublist first.sub first.fit.2, ?_⟩
  intro others h
  rw [first.fit.1]
  exact g.isMinimumCover_select_best.least others h

/-! ## Both searches -/

/-- All smallest covers have the same members. -/
def OneMinimumCover (g : Graph) : Prop :=
  ∃ least, g.IsMinimumCover least ∧
    ∀ others, g.IsMinimumCover others → ∀ v, v ∈ others ↔ v ∈ least

/-- Of two different sets of one size only one can come first. -/
theorem Precedes.asymm {a b : List Label} (h : g.Precedes a b)
    (size : (g.places a).length = (g.places b).length) : ¬ g.Precedes b a := fun back =>
  List.lt_asymm (places_lt h size) (places_lt back size.symm)

/-- **The exhaustive search beside the minimum search.** It refuses exactly the graphs with more
nodes than the limit allows. Otherwise it returns a vertex cover with as many nodes as the minimum
search. Of the covers of that size it is the first: the first node on which another one differs from
it is its own. So the two searches agree exactly if there is only one smallest cover. -/
theorem exhaustiveCover_first (g : Graph) (limit : Option Int) (repair : Bool) :
    (∀ fault, g.exhaustiveCover limit = .error fault ↔
      ∃ most ∈ limit, most < g.order ∧ fault = .exhaustiveLimit most g.order) ∧
    ((∀ most ∈ limit, g.order ≤ most) → ∃ members, g.exhaustiveCover limit = .ok members ∧
      g.IsVertexCover members ∧
      members.length = (g.minimumCover repair).members.length ∧
      (∀ others, g.IsVertexCover others → others.length = members.length →
        (∃ v, ¬ (v ∈ others ↔ v ∈ members)) → g.Precedes members others) ∧
      ((∀ v, v ∈ members ↔ v ∈ (g.minimumCover repair).members) ↔ g.OneMinimumCover)) := by
  constructor
  · intro fault
    cases limit with
    | none => simp [exhaustiveCover]
    | some most =>
      by_cases small : most < g.order
      · simp [exhaustiveCover, small, eq_comm]
      · simp [exhaustiveCover, small]
  · intro allowed
    have answer : g.exhaustiveCover limit = .ok g.firstCover := by
      cases limit with
      | none => rfl
      | some most => exact if_neg (Int.not_lt.mpr (allowed most rfl))
    have first := g.isMinimumCover_firstCover
    have last := g.isMinimumCover_select_best
    have size : g.firstCover.length = (g.select (g.explore true none).best).length :=
      Nat.le_antisymm (first.least _ last.toIsVertexCover) (last.least _ first.toIsVertexCover)
    rw [members_minimumCover]
    refine ⟨g.firstCover, answer, first.toIsVertexCover, size, fun _ => firstCover_precedes, ?_⟩
    constructor
    · intro same
      refine ⟨g.firstCover, first, ?_⟩
      intro others h
      by_contra differ
      rw [not_forall] at differ
      have length : others.length = g.firstCover.length :=
        Nat.le_antisymm (h.least _ first.toIsVertexCover) (first.least _ h.toIsVertexCover)
      -- Another cover would have to stand both after the first and before the last.
      have after := firstCover_precedes h.toIsVertexCover length differ
      have before : g.Precedes others g.firstCover := by
        refine Precedes.congr (select_best_precedes h.toIsVertexCover (length.trans size) ?_)
          fun v _ => (same v).symm
        obtain ⟨v, hv⟩ := differ
        exact ⟨v, by rwa [← same v]⟩
      refine after.asymm ?_ before
      rw [length_places first.nodup first.nodes, length_places h.nodup h.nodes, length]
    · rintro ⟨least, _, only⟩ v
      rw [only _ first v, only _ last v]

end VertexCover.Graph
