import VertexCover.Proofs.Gadget.Reduction
import VertexCover.Proofs.Search.Optimum

/-! The bounded search on the gadget graph decides satisfiability: it looks for a cover of the
target size, below which there is none. -/
namespace VertexCover.Formula
open VertexCover.Graph

variable {f : Formula}

theorem cover_isVertexCover (f : Formula) : f.gadgetGraph.IsVertexCover f.solve.cover :=
  f.gadgetGraph.boundedCover_isVertexCover f.target

/-- The search of a formula that can be satisfied finds a cover of the target size. -/
theorem length_cover_of_satisfied {a : Assignment} (on : a.IsOn f.varCount)
    (satisfied : f.evaluate a = .ok true) : f.solve.cover.length = f.target := by
  have least := target_le_length f.cover_isVertexCover
  have size := length_coverOf on
  rcases boundedCover_small f.target (isVertexCover_coverOf on satisfied) with le | le
  · exact Nat.le_antisymm (Int.ofNat_le.mp le) least
  · exact Nat.le_antisymm (size ▸ le) least

theorem values_eq_none_iff : f.solve.values = none ↔ f.target < f.solve.cover.length := by
  simp only [solve]
  split <;> simp_all

theorem values_eq_some {values : List Bool} (h : f.solve.values = some values) :
    values = f.readCover f.solve.cover ∧ f.solve.cover.length = f.target := by
  have within : ¬ f.target < f.solve.cover.length := by
    rw [← values_eq_none_iff, h]
    simp
  have least := target_le_length f.cover_isVertexCover
  refine ⟨?_, by omega⟩
  have read : f.solve.values = some (f.readCover f.solve.cover) := if_neg within
  exact Option.some.inj (h.symm.trans read)

theorem satisfiable_of_satisfied {a : Assignment} (on : a.IsOn f.varCount)
    (satisfied : f.evaluate a = .ok true) : f.solve.satisfiable = true := by
  rw [Verdict.satisfiable, Option.isSome_iff_ne_none, Ne, values_eq_none_iff,
    length_cover_of_satisfied on satisfied]
  exact Nat.lt_irrefl _

/-- **The solver decides satisfiability.** It says yes exactly if an assignment of the variables
makes the formula true. With a yes come the values of such an assignment and a cover of the target
size, with a no comes a cover that is larger. -/
theorem solve_decides (f : Formula) :
    f.solve.target = f.varCount + 2 * f.size ∧
    (f.solve.satisfiable = true ↔
      ∃ a : Assignment, a.IsOn f.varCount ∧ f.evaluate a = .ok true) ∧
    (f.solve.satisfiable = true → ∃ values, f.solve.values = some values ∧
      (Assignment.ofVector values).IsOn f.varCount ∧
      f.evaluate (Assignment.ofVector values) = .ok true ∧
      f.gadgetGraph.IsVertexCover f.solve.cover ∧ f.solve.cover.length = f.solve.target) ∧
    (f.solve.satisfiable = false → f.solve.values = none ∧
      f.gadgetGraph.IsVertexCover f.solve.cover ∧ f.solve.target < f.solve.cover.length) := by
  have cover := f.cover_isVertexCover
  have found (yes : f.solve.satisfiable = true) : ∃ values, f.solve.values = some values ∧
      (Assignment.ofVector values).IsOn f.varCount ∧
      f.evaluate (Assignment.ofVector values) = .ok true ∧
      f.solve.cover.length = f.solve.target := by
    obtain ⟨values, h⟩ := Option.isSome_iff_exists.mp yes
    obtain ⟨rfl, size⟩ := values_eq_some h
    exact ⟨_, h, f.readCover_isOn _, evaluate_readCover cover size, size⟩
  refine ⟨rfl, ⟨fun yes => ?_, ?_⟩, fun yes => ?_, fun no => ?_⟩
  · obtain ⟨values, _, on, satisfied, _⟩ := found yes
    exact ⟨_, on, satisfied⟩
  · rintro ⟨a, on, satisfied⟩
    exact satisfiable_of_satisfied on satisfied
  · obtain ⟨values, h, on, satisfied, size⟩ := found yes
    exact ⟨values, h, on, satisfied, cover, size⟩
  · have unset : f.solve.values = none := by simpa [Verdict.satisfiable] using no
    exact ⟨unset, cover, values_eq_none_iff.mp unset⟩

end VertexCover.Formula
