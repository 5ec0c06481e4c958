import Mathlib.Algebra.Order.BigOperators.Group.Finset
import VertexCover.Proofs.Gadget.Shape

/-!
# Tight covers of the gadget graph

A vertex cover takes at least one node of every variable pair and two of every clause triangle. If
it takes no more, then the variable nodes in it spell a satisfying assignment, and every satisfying
assignment is spelled by such a cover.

* `target_le_length`: no cover is smaller than the target;
* `readCover_readings`: reading a cover is reading its nodes one by one;
* `evaluate_readCover`: a cover of the target size satisfies the formula;
* `coverOf`: the cover of a satisfying assignment, from which `readCover_coverOf` reads the
  assignment back;
* `readCover_covers_eq`: both directions as an equation of sets.
-/

namespace VertexCover

/-- One if the numbered node is listed, else zero. -/
def weight (members : List Label) (i : Nat) : Nat :=
  if members.contains (Label.ofNat i) then 1 else 0

theorem weight_le_one (members : List Label) (i : Nat) : weight members i ≤ 1 := by
  unfold weight
  split <;> omega

theorem one_le_weight {members : List Label} {i : Nat} :
    1 ≤ weight members i ↔ Label.ofNat i ∈ members := by
  unfold weight
  split <;> simp_all

/-- A sum over a range, taken in blocks of the same length. -/
theorem sum_blocks (w : Nat → Nat) (b n : Nat) : ∑ j ∈ Finset.range (b * n), w j =
    ∑ i ∈ Finset.range n, ∑ r ∈ Finset.range b, w (b * i + r) := by
  induction n with
  | zero => simp
  | succ n ih => rw [Nat.mul_succ, Finset.sum_range_add, ih, Finset.sum_range_succ]

theorem mul_le_sum {w : Nat → Nat} {n c : Nat} (least : ∀ i < n, c ≤ w i) :
    n * c ≤ ∑ i ∈ Finset.range n, w i := by
  have le := Finset.sum_le_sum fun i hi => least i (Finset.mem_range.mp hi)
  rwa [Finset.sum_const_nat fun _ _ => rfl, Finset.card_range] at le

/-- If the terms of a sum have a lower bound and the sum is as small as that allows, so is every
term. -/
theorem eq_of_sum_eq {w : Nat → Nat} {n c : Nat} (least : ∀ i < n, c ≤ w i)
    (total : ∑ i ∈ Finset.range n, w i = n * c) : ∀ i < n, w i = c := by
  intro i hi
  have flat : ∑ _i ∈ Finset.range n, c = ∑ i ∈ Finset.range n, w i := by
    rw [total, Finset.sum_const_nat fun _ _ => rfl, Finset.card_range]
  have each := (Finset.sum_eq_sum_iff_of_le fun i hi => least i (Finset.mem_range.mp hi)).mp flat
  exact (each i (Finset.mem_range.mpr hi)).symm

theorem countP_range (p : Nat → Bool) (n : Nat) :
    (List.range n).countP p = ∑ i ∈ Finset.range n, if p i then 1 else 0 := by
  induction n with
  | zero => rfl
  | succ n ih =>
    rw [List.range_succ, List.countP_append, ih, Finset.sum_range_succ, List.countP_singleton]

namespace Clause

variable {c : Clause} {a : Assignment}

/-- The place of the first true literal of a clause, the last place if there is none before. -/
def spare (c : Clause) (a : Assignment) : Nat :=
  if c.first.Holds a then 0 else if c.second.Holds a then 1 else 2

theorem spare_lt (c : Clause) (a : Assignment) : c.spare a < 3 := by
  unfold spare
  split
  · omega
  · split <;> omega

theorem spare_cases (h : ∃ l ∈ c.literals, l.Holds a) :
    (c.spare a = 0 ∧ c.first.Holds a) ∨ (c.spare a = 1 ∧ c.second.Holds a) ∨
      (c.spare a = 2 ∧ c.third.Holds a) := by
  simp only [Clause.literals, List.mem_cons, List.not_mem_nil, or_false, exists_eq_or_imp,
    exists_eq_left] at h
  unfold spare
  by_cases first : c.first.Holds a
  · simp [first]
  · by_cases second : c.second.Holds a
    · simp [first, second]
    · simpa [first, second] using h

end Clause

namespace Formula
open VertexCover.Graph

variable {f : Formula} {members : List Label} {a : Assignment}

/-- How many nodes of the pair of a variable are listed. -/
def pairWeight (members : List Label) (i : Nat) : Nat :=
  weight members (2 * i) + weight members (2 * i + 1)

/-- How many nodes of the triangle of a clause are listed. -/
def triangleWeight (f : Formula) (members : List Label) (k : Nat) : Nat :=
  weight members (2 * f.varCount + 3 * k) + weight members (2 * f.varCount + 3 * k + 1) +
    weight members (2 * f.varCount + 3 * k + 2)

/-- The size of a set of numbered nodes, counted by pairs and triangles. -/
theorem length_eq_sum (nodup : members.Nodup)
    (nodes : ∀ v ∈ members, v ∈ Label.upTo (2 * f.varCount + 3 * f.size)) :
    members.length = ∑ i ∈ Finset.range f.varCount, pairWeight members i +
      ∑ k ∈ Finset.range f.size, f.triangleWeight members k := by
  have counted : members.length =
      ∑ i ∈ Finset.range (2 * f.varCount + 3 * f.size), weight members i := by
    rw [← f.nodes_gadgetGraph] at nodes
    rw [← count_vector nodup nodes, Search.count, vector, nodes_gadgetGraph, Label.upTo,
      List.countP_map, List.countP_map, countP_range]
    rfl
  rw [counted, Finset.sum_range_add, sum_blocks, sum_blocks]
  simp [Finset.sum_range_succ, pairWeight, triangleWeight, Nat.add_assoc]

theorem meets_edge (h : f.gadgetGraph.IsVertexCover members) {i j : Nat}
    (he : (i, j) ∈ f.gadgetEdges) : 1 ≤ weight members i ∨ 1 ≤ weight members j := by
  rw [one_le_weight, one_le_weight]
  exact (isVertexCover_gadgetGraph_iff.mp h).2.2 (i, j) he

theorem one_le_pairWeight (h : f.gadgetGraph.IsVertexCover members) {i : Nat}
    (hi : i < f.varCount) : 1 ≤ pairWeight members i := by
  have pair := meets_edge h (mem_gadgetEdges.mpr (.inl ⟨i, hi, rfl⟩))
  unfold pairWeight
  omega

theorem two_le_triangleWeight (h : f.gadgetGraph.IsVertexCover members) {k : Nat}
    (hk : k < f.size) : 2 ≤ f.triangleWeight members k := by
  have hc : f.clauses[k]? = some (f.clauses[k]) := List.getElem?_eq_getElem hk
  have side {i j : Nat} (he : (i, j) ∈ clauseEdges f.clauses[k] (2 * f.varCount + 3 * k)) :=
    meets_edge h (mem_gadgetEdges.mpr (.inr ⟨k, _, hc, he⟩))
  have first := side List.mem_cons_self
  have second := side (List.mem_cons_of_mem _ List.mem_cons_self)
  have third := side (List.mem_cons_of_mem _ (List.mem_cons_of_mem _ List.mem_cons_self))
  unfold triangleWeight
  omega

/-- **No cover is smaller than the target.** -/
theorem target_le_length (h : f.gadgetGraph.IsVertexCover members) : f.target ≤ members.length := by
  obtain ⟨nodup, nodes, _⟩ := isVertexCover_gadgetGraph_iff.mp h
  have pairs := mul_le_sum fun i => one_le_pairWeight (i := i) h
  have triangles := mul_le_sum fun k => two_le_triangleWeight (k := k) h
  rw [length_eq_sum nodup nodes]
  unfold target
  omega

/-! ## Reading a set of nodes -/

/-- What a numbered gadget node says about an assignment: the node of a positive literal gives the
variable its value, the others say nothing. -/
def reading (members : List Label) (node : GadgetNode × Nat) : Option (Nat × Bool) :=
  if node.1.place.isNone && node.1.literal.positive then
    some (node.1.literal.var, members.contains (Label.ofNat node.2))
  else none

theorem readings_variables (members : List Label) (n : Nat) :
    let nodes : List GadgetNode :=
      (List.range n).flatMap fun i => (literalsAt i).map fun l => ⟨l, none⟩
    nodes.length = 2 * n ∧ nodes.zipIdx.filterMap (reading members) =
      (List.range n).map fun i => (i + 1, members.contains (Label.ofNat (2 * i))) := by
  induction n with
  | zero => exact ⟨rfl, rfl⟩
  | succ n ih =>
    obtain ⟨length, readings⟩ := ih
    dsimp only at length readings ⊢
    rw [List.range_succ, List.flatMap_append, List.zipIdx_append, List.filterMap_append,
      List.length_append, length, readings, List.map_append]
    refine ⟨rfl, ?_⟩
    congr 1
    simp [reading, literalsAt, List.zipIdx_cons]

/-- The values read off a set of nodes are what the nodes say, taken in their order. -/
theorem readCover_readings (f : Formula) (members : List Label) :
    numbered (f.readCover members) = f.gadgetNodes.zipIdx.filterMap (reading members) := by
  obtain ⟨length, readings⟩ := readings_variables members f.varCount
  rw [gadgetNodes, List.zipIdx_append, List.filterMap_append, readings,
    List.filterMap_eq_nil_iff.mpr, List.append_nil, numbered, readCover]
  · apply List.ext_getElem (by simp)
    intro i _ _
    simp [Label.ofNat]
  · intro node hn
    have placed : node.1.place.isNone = false := by
      have listed := List.fst_mem_of_mem_zipIdx hn
      simp only [List.mem_flatMap, List.mem_map] at listed
      obtain ⟨c, -, l, -, same⟩ := listed
      rw [← same]
      rfl
    simp [reading, placed]

theorem length_readCover (f : Formula) (members : List Label) :
    (f.readCover members).length = f.varCount := by
  simp [readCover]

theorem ofVector_readCover {i : Nat} (hi : i < f.varCount) :
    Assignment.ofVector (f.readCover members) (i + 1) =
      some (members.contains (Label.ofNat (2 * i))) := by
  rw [Assignment.ofVector_succ, readCover, List.getElem?_map, List.getElem?_range hi]
  rfl

theorem readCover_isOn (f : Formula) (members : List Label) :
    (Assignment.ofVector (f.readCover members)).IsOn f.varCount := by
  have on := Assignment.ofVector_isOn (f.readCover members)
  rwa [length_readCover] at on

/-! ## From a tight cover to an assignment -/

/-- A cover of the target size takes exactly one node of every pair and two of every triangle. -/
theorem tight_weights (h : f.gadgetGraph.IsVertexCover members) (size : members.length = f.target) :
    (∀ i < f.varCount, pairWeight members i = 1) ∧
      ∀ k < f.size, f.triangleWeight members k = 2 := by
  obtain ⟨nodup, nodes, _⟩ := isVertexCover_gadgetGraph_iff.mp h
  have pairs := mul_le_sum fun i => one_le_pairWeight (i := i) h
  have triangles := mul_le_sum fun k => two_le_triangleWeight (k := k) h
  rw [length_eq_sum nodup nodes] at size
  unfold target at size
  constructor
  · exact eq_of_sum_eq (fun i => one_le_pairWeight h) (by omega)
  · exact eq_of_sum_eq (fun k => two_le_triangleWeight h) (by omega)

/-- A literal whose node is listed is made true if the node of its negation is not. -/
theorem holds_readCover {l : Literal} (hl : l.var ≤ f.varCount)
    (pair : pairWeight members (l.var - 1) = 1) (listed : 1 ≤ weight members l.node) :
    l.Holds (Assignment.ofVector (f.readCover members)) := by
  obtain ⟨i, hi⟩ : ∃ i, l.var = i + 1 := ⟨l.var - 1, by have := l.var_pos; omega⟩
  unfold Literal.Holds
  unfold pairWeight at pair
  unfold Literal.node at listed
  rw [hi, Nat.add_sub_cancel] at pair listed
  rw [hi, ofVector_readCover (by omega)]
  cases positive : l.positive with
  | true =>
    rw [positive, if_pos rfl, one_le_weight] at listed
    simpa using listed
  | false =>
    rw [positive, if_neg (by simp)] at listed
    have absent : ¬ Label.ofNat (2 * i) ∈ members := by
      rw [← one_le_weight]
      omega
    simpa using absent

/-- **A cover of the target size spells a satisfying assignment.** -/
theorem evaluate_readCover (h : f.gadgetGraph.IsVertexCover members)
    (size : members.length = f.target) :
    f.evaluate (Assignment.ofVector (f.readCover members)) = .ok true := by
  obtain ⟨pairs, triangles⟩ := tight_weights h size
  refine (evaluate_eq_true_iff (f.readCover_isOn members)).mpr fun c member => ?_
  obtain ⟨k, hc⟩ := List.mem_iff_getElem?.mp member
  obtain ⟨hk, _⟩ := List.getElem?_eq_some_iff.mp hc
  have triangle := triangles k hk
  have holds {i : Nat} {l : Literal} (hl : l ∈ c.literals) (absent : weight members i = 0)
      (he : (i, l.node) ∈ clauseEdges c (2 * f.varCount + 3 * k)) :
      l.Holds (Assignment.ofVector (f.readCover members)) := by
    have most := le_varCount (mem_literals member hl)
    have least := l.var_pos
    have met := meets_edge h (mem_gadgetEdges.mpr (.inr ⟨k, c, hc, he⟩))
    exact holds_readCover most (pairs _ (by omega)) (by omega)
  -- One place of the triangle is left out; its literal is the true one.
  have left : weight members (2 * f.varCount + 3 * k) = 0 ∨
      weight members (2 * f.varCount + 3 * k + 1) = 0 ∨
      weight members (2 * f.varCount + 3 * k + 2) = 0 := by
    have := weight_le_one members (2 * f.varCount + 3 * k)
    have := weight_le_one members (2 * f.varCount + 3 * k + 1)
    unfold triangleWeight at triangle
    omega
  rcases left with absent | absent | absent
  · have hl : c.first ∈ c.literals := by simp [Clause.literals]
    exact ⟨c.first, hl, holds hl absent (by simp [clauseEdges])⟩
  · have hl : c.second ∈ c.literals := by simp [Clause.literals]
    exact ⟨c.second, hl, holds hl absent (by simp [clauseEdges])⟩
  · have hl : c.third ∈ c.literals := by simp [Clause.literals]
    exact ⟨c.third, hl, holds hl absent (by simp [clauseEdges])⟩

/-! ## From an assignment to a tight cover -/

/-- The numbered node belongs to the cover of an assignment: the variable node of a true literal, or
a clause node that is not the spare one. -/
def chosen (f : Formula) (a : Assignment) (i : Nat) : Bool :=
  if i < 2 * f.varCount then a (i / 2 + 1) == some (i % 2 == 0)
  else
    match f.clauses[(i - 2 * f.varCount) / 3]? with
    | some c => (i - 2 * f.varCount) % 3 != c.spare a
    | none => false

/-- The cover of the gadget graph that an assignment stands for. -/
def coverOf (f : Formula) (a : Assignment) : List Label :=
  ((List.range (2 * f.varCount + 3 * f.size)).filter (f.chosen a)).map Label.ofNat

theorem mem_coverOf {i : Nat} : Label.ofNat i ∈ f.coverOf a ↔
    i < 2 * f.varCount + 3 * f.size ∧ f.chosen a i = true := by
  simp only [coverOf, List.mem_map, List.mem_filter, List.mem_range, Label.ofNat_inj,
    exists_eq_right]

theorem weight_coverOf {i : Nat} (hi : i < 2 * f.varCount + 3 * f.size) :
    weight (f.coverOf a) i = if f.chosen a i then 1 else 0 := by
  simp [weight, mem_coverOf, hi]

theorem chosen_variable {i r : Nat} (hi : i < f.varCount) (hr : r < 2) :
    f.chosen a (2 * i + r) = (a (i + 1) == some (r == 0)) := by
  have half : (2 * i + r) / 2 = i := by omega
  have rest : (2 * i + r) % 2 = r := by omega
  rw [chosen, if_pos (by omega), half, rest]

theorem chosen_node {l : Literal} (hl : l.var ≤ f.varCount) :
    f.chosen a l.node = true ↔ l.Holds a := by
  have least := l.var_pos
  have back : l.var - 1 + 1 = l.var := by omega
  unfold Literal.node Literal.Holds
  rw [chosen_variable (by omega) (by split <;> omega), back]
  cases l.positive <;> simp

theorem chosen_place {k p : Nat} {c : Clause} (hc : f.clauses[k]? = some c) (hp : p < 3) :
    f.chosen a (2 * f.varCount + 3 * k + p) = (p != c.spare a) := by
  have third : (2 * f.varCount + 3 * k + p - 2 * f.varCount) / 3 = k := by omega
  have rest : (2 * f.varCount + 3 * k + p - 2 * f.varCount) % 3 = p := by omega
  rw [chosen, if_neg (by omega), third, rest, hc]

theorem pairWeight_coverOf (h : a.IsOn f.varCount) {i : Nat} (hi : i < f.varCount) :
    pairWeight (f.coverOf a) i = 1 := by
  obtain ⟨value, hv⟩ := Option.isSome_iff_exists.mp ((h (i + 1)).mpr ⟨by omega, by omega⟩)
  have positive : f.chosen a (2 * i) = (a (i + 1) == some true) :=
    chosen_variable (r := 0) hi (by omega)
  have negative : f.chosen a (2 * i + 1) = (a (i + 1) == some false) :=
    chosen_variable hi (by omega)
  rw [pairWeight, weight_coverOf (by omega), weight_coverOf (by omega), positive, negative, hv]
  cases value <;> rfl

theorem triangleWeight_coverOf (a : Assignment) {k : Nat} (hk : k < f.size) :
    f.triangleWeight (f.coverOf a) k = 2 := by
  have hc : f.clauses[k]? = some (f.clauses[k]) := List.getElem?_eq_getElem hk
  have first : f.chosen a (2 * f.varCount + 3 * k) = (0 != f.clauses[k].spare a) :=
    chosen_place (p := 0) hc (by omega)
  rw [triangleWeight, weight_coverOf (by omega), weight_coverOf (by omega),
    weight_coverOf (by omega), first, chosen_place hc (by omega), chosen_place hc (by omega)]
  have place : f.clauses[k].spare a = 0 ∨ f.clauses[k].spare a = 1 ∨ f.clauses[k].spare a = 2 := by
    have := f.clauses[k].spare_lt a
    omega
  rcases place with h | h | h <;> rw [h] <;> rfl

theorem coverOf_nodup (f : Formula) (a : Assignment) : (f.coverOf a).Nodup :=
  (List.nodup_range.filter _).map fun _ _ => Label.ofNat_inj.mp

theorem coverOf_nodes : ∀ v ∈ f.coverOf a, v ∈ Label.upTo (2 * f.varCount + 3 * f.size) := by
  intro v hv
  obtain ⟨i, hi, rfl⟩ := List.mem_map.mp hv
  exact Label.ofNat_mem_upTo.mpr (List.mem_range.mp (List.mem_of_mem_filter hi))

theorem length_coverOf (h : a.IsOn f.varCount) : (f.coverOf a).length = f.target := by
  rw [length_eq_sum (f.coverOf_nodup a) coverOf_nodes,
    Finset.sum_const_nat fun i hi => pairWeight_coverOf h (Finset.mem_range.mp hi),
    Finset.sum_const_nat fun k hk => triangleWeight_coverOf a (Finset.mem_range.mp hk),
    Finset.card_range, Finset.card_range, target]
  omega

/-- The edge between a clause node and its variable node is met at the variable node if the clause
node is the spare one. -/
theorem meets_cross {k p : Nat} {c : Clause} {l : Literal} (hc : f.clauses[k]? = some c)
    (hl : l ∈ c.literals) (hp : p < 3) (holds : c.spare a = p → l.Holds a) :
    1 ≤ weight (f.coverOf a) (2 * f.varCount + 3 * k + p) ∨ 1 ≤ weight (f.coverOf a) l.node := by
  obtain ⟨hk, _⟩ := List.getElem?_eq_some_iff.mp hc
  have listed := mem_literals (List.mem_of_getElem? hc) hl
  have inside : 2 * f.varCount + 3 * k + p < 2 * f.varCount + 3 * f.size := by
    unfold Formula.size
    omega
  rw [one_le_weight, one_le_weight, mem_coverOf, mem_coverOf, chosen_place hc hp,
    chosen_node (le_varCount listed)]
  by_cases spare : c.spare a = p
  · have node := node_lt listed
    exact .inr ⟨by omega, holds spare⟩
  · exact .inl ⟨inside, bne_iff_ne.mpr (Ne.symm spare)⟩

/-- **A satisfying assignment stands for a cover.** -/
theorem isVertexCover_coverOf (h : a.IsOn f.varCount) (satisfied : f.evaluate a = .ok true) :
    f.gadgetGraph.IsVertexCover (f.coverOf a) := by
  refine isVertexCover_gadgetGraph_iff.mpr ⟨f.coverOf_nodup a, coverOf_nodes, fun e he => ?_⟩
  rw [← one_le_weight, ← one_le_weight]
  rcases mem_gadgetEdges.mp he with ⟨i, hi, rfl⟩ | ⟨k, c, hc, he⟩
  · have pair := pairWeight_coverOf h hi
    unfold pairWeight at pair
    dsimp only
    omega
  · obtain ⟨hk, _⟩ := List.getElem?_eq_some_iff.mp hc
    have spare := Clause.spare_cases
      ((evaluate_eq_true_iff h).mp satisfied c (List.mem_of_getElem? hc))
    have triangle := triangleWeight_coverOf a hk
    have first := weight_le_one (f.coverOf a) (2 * f.varCount + 3 * k)
    have second := weight_le_one (f.coverOf a) (2 * f.varCount + 3 * k + 1)
    have third := weight_le_one (f.coverOf a) (2 * f.varCount + 3 * k + 2)
    unfold triangleWeight at triangle
    simp only [clauseEdges, List.mem_cons, List.not_mem_nil, or_false] at he
    rcases he with rfl | rfl | rfl | rfl | rfl | rfl
    · dsimp only; omega
    · dsimp only; omega
    · dsimp only; omega
    · exact meets_cross (p := 0) hc (by simp [Clause.literals]) (by omega) (by grind)
    · exact meets_cross hc (by simp [Clause.literals]) (by omega) (by grind)
    · exact meets_cross hc (by simp [Clause.literals]) (by omega) (by grind)

/-- The cover of an assignment spells that assignment. -/
theorem readCover_coverOf (h : a.IsOn f.varCount) :
    Assignment.ofVector (f.readCover (f.coverOf a)) = a := by
  have on := f.readCover_isOn (f.coverOf a)
  funext v
  by_cases hv : 1 ≤ v ∧ v ≤ f.varCount
  · obtain ⟨value, given⟩ := Option.isSome_iff_exists.mp ((h v).mpr hv)
    obtain ⟨i, rfl⟩ : ∃ i, v = i + 1 := ⟨v - 1, by omega⟩
    have positive : f.chosen a (2 * i) = (a (i + 1) == some true) :=
      chosen_variable (r := 0) (by omega) (by omega)
    have listed : (f.coverOf a).contains (Label.ofNat (2 * i)) = value := by
      have inside : 2 * i < 2 * f.varCount + 3 * f.size := by omega
      rw [Bool.eq_iff_iff, List.contains_iff_mem, mem_coverOf, positive, given]
      simp [inside]
    rw [ofVector_readCover (by omega), given, listed]
  · have unset : a v = none := by
      have absent := (h v).not.mpr hv
      simpa using absent
    have absent := (on v).not.mpr hv
    rw [unset]
    simpa using absent

/-- **The reduction.** Every vertex cover of the gadget graph has at least `n + 2m` nodes, and the
assignments read off the covers of exactly that size are the satisfying ones. -/
theorem readCover_covers_eq (f : Formula) :
    (∀ members, f.gadgetGraph.IsVertexCover members →
      f.varCount + 2 * f.size ≤ members.length) ∧
    {a | ∃ members, f.gadgetGraph.IsVertexCover members ∧
      members.length = f.varCount + 2 * f.size ∧
      a = Assignment.ofVector (f.readCover members)} =
    {a | a.IsOn f.varCount ∧ f.evaluate a = .ok true} := by
  refine ⟨fun members => target_le_length, ?_⟩
  ext a
  constructor
  · rintro ⟨members, h, size, rfl⟩
    exact ⟨f.readCover_isOn members, evaluate_readCover h size⟩
  · rintro ⟨on, satisfied⟩
    exact ⟨f.coverOf a, isVertexCover_coverOf on satisfied, length_coverOf on,
      (readCover_coverOf on).symm⟩

end Formula

end VertexCover
