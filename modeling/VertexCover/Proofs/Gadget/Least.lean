import VertexCover.Proofs.Gadget.Decision
import VertexCover.Proofs.Search.Ties

/-!
# Which assignment the solver finds

The variable nodes of the gadget graph come first, in pairs, the positive literal before the negative
one. Of the covers of the target size the search ends with the last in node order, so the first node
on which another one differs is the node of a positive literal, and the other cover holds it.

* `Precedes.numbered`: the order of node sets, for numbered nodes;
* `readCover_lt`: the order of tight covers is the opposite order of the assignments they spell;
* `solve_values_least`: the solver finds the least satisfying assignment.
-/

namespace VertexCover

namespace Graph

/-- Among numbered nodes, the first one on which two sets differ is the least number. -/
theorem Precedes.numbered {g : Graph} {n : Nat} {a b : List Label} (nodes : g.nodes = Label.upTo n)
    (h : g.Precedes a b) : ∃ j < n, (∀ i < j, Label.ofNat i ∈ a ↔ Label.ofNat i ∈ b) ∧
      Label.ofNat j ∈ a ∧ Label.ofNat j ∉ b := by
  obtain ⟨before, v, after, split, same, ha, hb⟩ := h
  rw [nodes] at split
  have here : (Label.upTo n)[before.length]? = some v := by simp [split]
  obtain ⟨inside, rfl⟩ := Label.getElem?_upTo.mp here
  refine ⟨before.length, inside, fun i hi => ?_, ha, hb⟩
  have listed : (Label.upTo n)[i]? = some (Label.ofNat i) :=
    Label.getElem?_upTo.mpr ⟨by omega, rfl⟩
  rw [split, List.getElem?_append_left hi] at listed
  exact same _ (List.mem_of_getElem? listed)

end Graph

namespace Formula
open VertexCover.Graph Search

variable {f : Formula} {a b : List Label}

/-- A tight cover that comes before another one spells an assignment that comes after the other's,
unless the two spell the same. -/
theorem readCover_lt (tight_a : ∀ i < f.varCount, pairWeight a i = 1)
    (tight_b : ∀ i < f.varCount, pairWeight b i = 1) (h : f.gadgetGraph.Precedes a b) :
    f.readCover a = f.readCover b ∨ f.readCover b < f.readCover a := by
  obtain ⟨j, _, same, ha, hb⟩ := h.numbered f.nodes_gadgetGraph
  have agree {i : Nat} (hi : 2 * i < j) :
      a.contains (Label.ofNat (2 * i)) = b.contains (Label.ofNat (2 * i)) := by
    rw [Bool.eq_iff_iff, List.contains_iff_mem, List.contains_iff_mem]
    exact same _ hi
  by_cases variable_node : j < 2 * f.varCount
  · right
    -- At an odd number the partner would come earlier, and it decides who has the node.
    have even : j % 2 = 0 := by
      by_contra odd
      obtain ⟨i, rfl⟩ : ∃ i, j = 2 * i + 1 := ⟨j / 2, by omega⟩
      have pair_a := tight_a i (by omega)
      have pair_b := tight_b i (by omega)
      have partner := same (2 * i) (by omega)
      rw [← one_le_weight, ← one_le_weight] at partner
      rw [← one_le_weight] at ha hb
      unfold pairWeight at pair_a pair_b
      omega
    obtain ⟨i, rfl⟩ : ∃ i, j = 2 * i := ⟨j / 2, by omega⟩
    apply List.lt_iff_exists.mpr
    refine .inr ⟨i, by rw [length_readCover]; omega, by rw [length_readCover]; omega, ?_, ?_⟩
    · intro k hk
      simp only [readCover, List.getElem_map, List.getElem_range]
      exact (agree (by omega)).symm
    · simp only [readCover, List.getElem_map, List.getElem_range]
      have set : a.contains (Label.ofNat (2 * i)) = true := List.contains_iff_mem.mpr ha
      have unset : b.contains (Label.ofNat (2 * i)) = false := by simpa using hb
      exact Bool.lt_iff.mpr ⟨unset, set⟩
  · left
    unfold readCover
    apply List.map_congr_left
    intro i hi
    have := List.mem_range.mp hi
    exact agree (by omega)

/-- The target is the size of a smallest cover of a formula that can be satisfied, so the search ends
with the cover that the search without a target finds. -/
theorem cover_eq_select_best {x : Assignment} (on : x.IsOn f.varCount)
    (satisfied : f.evaluate x = .ok true) : f.solve.cover =
      f.gadgetGraph.select (f.gadgetGraph.explore true none).best := by
  have size := length_coverOf on
  have least : f.gadgetGraph.IsMinimumCover (f.coverOf x) := by
    refine ⟨isVertexCover_coverOf on satisfied, fun others cover => ?_⟩
    rw [size]
    exact target_le_length cover
  exact congrArg f.gadgetGraph.select (best_eq_of_le least (by rw [size]))

/-- **The solver finds the least satisfying assignment.** If a formula can be satisfied, the values
are those of a satisfying assignment, and the values of every other one come later in the
lexicographic order that starts with the first variable and puts false before true. -/
theorem solve_values_least (f : Formula)
    (satisfiable : ∃ x : Assignment, x.IsOn f.varCount ∧ f.evaluate x = .ok true) :
    ∃ values, f.solve.values = some values ∧ values.length = f.varCount ∧
      f.evaluate (Assignment.ofVector values) = .ok true ∧
      ∀ others : List Bool, others.length = f.varCount →
        f.evaluate (Assignment.ofVector others) = .ok true → others ≠ values → values < others := by
  obtain ⟨x, on, satisfied⟩ := satisfiable
  have size := length_cover_of_satisfied on satisfied
  have cover := f.cover_isVertexCover
  refine ⟨f.readCover f.solve.cover, if_neg (show ¬ f.target < f.solve.cover.length by omega),
    f.length_readCover _, evaluate_readCover cover size, ?_⟩
  intro others length holds differ
  have others_on : (Assignment.ofVector others).IsOn f.varCount :=
    length ▸ Assignment.ofVector_isOn others
  -- The other assignment has a cover of its own, as small as the one that was found.
  have other_cover := isVertexCover_coverOf others_on holds
  have other_size := length_coverOf others_on
  have other_values : f.readCover (f.coverOf (Assignment.ofVector others)) = others :=
    Assignment.ofVector_inj.mp (readCover_coverOf others_on)
  have apart : ∃ v, ¬ (v ∈ f.coverOf (Assignment.ofVector others) ↔ v ∈ f.solve.cover) := by
    by_contra same
    push Not at same
    apply differ
    rw [← other_values]
    unfold readCover
    simp [same]
  have first : f.gadgetGraph.Precedes (f.coverOf (Assignment.ofVector others)) f.solve.cover := by
    rw [cover_eq_select_best on satisfied] at apart size ⊢
    exact select_best_precedes other_cover (other_size.trans size.symm) apart
  have other_pairs := (tight_weights other_cover other_size).1
  have pairs := (tight_weights cover size).1
  rcases readCover_lt other_pairs pairs first with same | less
  · exact absurd (other_values.symm.trans same) differ
  · rwa [other_values] at less

/-- Exactly one of two variables is true: the solver makes the second one true, and the other way
comes later. -/
theorem solve_values_least_exclusive : ∃ f : Formula, f.toInts = [1, 2, 2, -1, -2, -2] ∧
    f.solve.values = some [false, true] ∧
    f.evaluate (Assignment.ofVector [true, false]) = .ok true ∧ [false, true] < [true, false] := by
  let x (positive : Bool) : Literal := ⟨1, positive, by decide⟩
  let y (positive : Bool) : Literal := ⟨2, positive, by decide⟩
  let f : Formula := ⟨[⟨x true, y true, y true⟩, ⟨x false, y false, y false⟩]⟩
  have second : f.evaluate (Assignment.ofVector [true, false]) = .ok true := by decide
  have values : f.solve.values = some [false, true] := by decide +kernel
  obtain ⟨found, answer, _, _, least⟩ := solve_values_least f
    ⟨_, Assignment.ofVector_isOn [true, false], second⟩
  have same : found = [false, true] := Option.some.inj (answer.symm.trans values)
  subst same
  exact ⟨f, by decide, values, second, least [true, false] rfl second (by decide)⟩

end Formula

end VertexCover
