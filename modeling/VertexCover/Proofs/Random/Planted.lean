import VertexCover.Proofs.Gadget.Decision
import VertexCover.Proofs.Random.Formula

/-!
# Planted formulas

A clause that does not hold under the hidden assignment has three false literals, and any of them
turned round is true. The variables stay what they were, so the formula keeps its shape.

* `holds_flipAt`: one clause;
* `plant_clauses`: all clauses, for any stream;
* `vars_planting`, `evaluate_planting`: a formula after planting;
* `planted_holds`: planted formulas are satisfied by their plant.
-/

namespace VertexCover.Random

variable {γ : Type} {next : Next γ} {s : γ} {a : Assignment} {c : Clause}

/-! ## One clause -/

theorem holds_iff : holds a c = true ↔ ∃ l ∈ c.literals, l.Holds a := by
  simp [holds, Literal.Holds]

theorem holds_negate {l : Literal} (total : (a l.var).isSome = true) (fails : ¬ l.Holds a) :
    l.negate.Holds a := by
  obtain ⟨value, given⟩ := Option.isSome_iff_exists.mp total
  unfold Literal.Holds at fails ⊢
  rw [given, Option.some.injEq] at fails
  rw [Literal.negate, given, Option.some.injEq]
  cases value <;> simp_all

theorem vars_flipAt (c : Clause) (place : Int) :
    (flipAt c place).literals.map Literal.var = c.literals.map Literal.var := by
  unfold flipAt
  split
  · rfl
  · split <;> rfl

/-- Any literal of a clause that does not hold can be turned round to make it hold. -/
theorem holds_flipAt (place : Int) (total : ∀ l ∈ c.literals, (a l.var).isSome = true)
    (fails : ¬ holds a c = true) : holds a (flipAt c place) = true := by
  have turned {l : Literal} (hl : l ∈ c.literals) : l.negate.Holds a :=
    holds_negate (total l hl) fun true_already => fails (holds_iff.mpr ⟨l, hl, true_already⟩)
  rw [holds_iff]
  unfold flipAt
  split
  · exact ⟨c.first.negate, by simp [Clause.literals], turned (by simp [Clause.literals])⟩
  · split
    · exact ⟨c.second.negate, by simp [Clause.literals], turned (by simp [Clause.literals])⟩
    · exact ⟨c.third.negate, by simp [Clause.literals], turned (by simp [Clause.literals])⟩

/-! ## All clauses -/

/-- Planting changes signs only. -/
theorem vars_plant (next : Next γ) (a : Assignment) (clauses : List Clause) (s : γ) :
    (plant next a clauses s).1.map (fun c => c.literals.map Literal.var) =
      clauses.map fun c => c.literals.map Literal.var := by
  induction clauses generalizing s with
  | nil => rfl
  | cons c clauses ih =>
    rw [plant]
    split
    · exact congrArg (_ :: ·) (ih s)
    · exact congrArg₂ List.cons (vars_flipAt c _) (ih _)

/-- Planting makes every clause hold. -/
theorem holds_plant {clauses : List Clause} {d : Clause}
    (total : ∀ c ∈ clauses, ∀ l ∈ c.literals, (a l.var).isSome = true)
    (hd : d ∈ (plant next a clauses s).1) : holds a d = true := by
  induction clauses generalizing s with
  | nil => cases hd
  | cons c clauses ih =>
    have later {t : γ} (hd : d ∈ (plant next a clauses t).1) : holds a d = true :=
      ih (fun c hc => total c (List.mem_cons_of_mem _ hc)) hd
    rw [plant] at hd
    split at hd
    · rename_i already
      rcases List.mem_cons.mp hd with rfl | hd
      · exact already
      · exact later hd
    · rename_i fails
      rcases List.mem_cons.mp hd with rfl | hd
      · exact holds_flipAt _ (total c List.mem_cons_self) fails
      · exact later hd

/-- The formula with a literal turned round in every clause that did not hold. -/
def planting (next : Next γ) (a : Assignment) (f : Formula) (s : γ) : Formula :=
  ⟨(plant next a f.clauses s).1⟩

theorem size_planting (next : Next γ) (a : Assignment) (f : Formula) (s : γ) :
    (planting next a f s).size = f.size := by
  have same := congrArg List.length (vars_plant next a f.clauses s)
  rwa [List.length_map, List.length_map] at same

theorem vars_planting (next : Next γ) (a : Assignment) (f : Formula) (s : γ) :
    (planting next a f s).literals.map Literal.var = f.literals.map Literal.var := by
  rw [Formula.literals, Formula.literals, List.map_flatMap, List.map_flatMap, List.flatMap_def,
    List.flatMap_def]
  exact congrArg List.flatten (vars_plant next a f.clauses s)

theorem varCount_planting (next : Next γ) (a : Assignment) (f : Formula) (s : γ) :
    (planting next a f s).varCount = f.varCount := by
  have greatest (g : Formula) : g.varCount = (g.literals.map Literal.var).foldl max 0 :=
    List.foldl_map.symm
  rw [greatest, greatest, vars_planting]

theorem forall_vars_planting (p : Nat → Prop) {f : Formula} (h : ∀ l ∈ f.literals, p l.var) :
    ∀ l ∈ (planting next a f s).literals, p l.var := by
  rw [← List.forall_mem_map (f := Literal.var), vars_planting, List.forall_mem_map]
  exact h

/-- **A formula holds after planting.** -/
theorem evaluate_planting {f : Formula} (total : ∀ l ∈ f.literals, (a l.var).isSome = true) :
    (planting next a f s).evaluate a = .ok true := by
  have given : ∀ c ∈ (planting next a f s).clauses, ∀ l ∈ c.literals, (a l.var).isSome = true := by
    intro c hc l hl
    exact forall_vars_planting (fun v => (a v).isSome = true) total l (Formula.mem_literals hc hl)
  rw [Formula.evaluate, Formula.evaluateAll_eq given, Except.ok.injEq, List.all_eq_true]
  intro c hc
  have true_in : holds a c = true :=
    holds_plant (fun c hc l hl => total l (Formula.mem_literals hc hl)) hc
  simpa [holds_iff] using true_in

/-! ## Planted formulas -/

variable {vars clauses : Int}

theorem length_values (next : Next γ) (count : Nat) (s : γ) :
    (values next count s).1.length = count := by
  change ((many next 0 2 count s).1.map (· != 0)).length = count
  rw [List.length_map, length_many]

theorem planted_eq (next : Next γ) (vars clauses : Int) (s : γ) :
    planted next vars clauses s =
      (formula next vars clauses (values next vars.toNat s).2).map fun (f, t) =>
        (planting next (.ofVector (values next vars.toNat s).1) f t,
          (values next vars.toNat s).1) := by
  unfold planted
  simp only [bind, Except.bind]
  cases formula next vars clauses (values next vars.toNat s).2 with
  | error fault => rfl
  | ok made => rfl

/-- A formula without clauses and one whose variables all have values are told satisfiable. -/
theorem satisfiable_of_holds {f : Formula} {hidden : List Bool}
    (length : f.clauses ≠ [] → hidden.length = f.varCount)
    (satisfied : f.evaluate (.ofVector hidden) = .ok true) : f.solve.satisfiable = true := by
  by_cases empty : f.clauses = []
  · obtain rfl : f = ⟨[]⟩ := by rw [Formula.mk.injEq]; exact empty
    exact Formula.satisfiable_of_satisfied (Assignment.ofVector_isOn []) rfl
  · refine Formula.satisfiable_of_satisfied ?_ satisfied
    rw [← length empty]
    exact Assignment.ofVector_isOn hidden

section
variable (next : Next γ) (s : γ) (least : 0 < clauses → 1 ≤ vars) (positive : 0 ≤ clauses)
  (word : vars < wordLimit)
include least positive word

/-- A planted formula keeps the shape of the random formula it is made from. -/
theorem planted_eq_ok (fits : 24 * clauses < wordLimit) : ∃ f hidden,
    planted next vars clauses s = .ok (f, hidden) ∧
    (f.size : Int) = clauses ∧ (∀ l ∈ f.literals, (l.var : Int) ≤ vars) ∧
    (0 < clauses → (f.varCount : Int) = vars) ∧
    hidden.length = vars.toNat ∧
    f.evaluate (.ofVector hidden) = .ok true ∧ f.solve.satisfiable = true := by
  let drawn := values next vars.toNat s
  obtain ⟨f, t, made, size, upper, count⟩ :=
    formula_eq_ok next drawn.2 least positive word (checkLength_ok positive fits)
  have total : ∀ l ∈ f.literals, (Assignment.ofVector drawn.1 l.var).isSome = true := by
    intro l hl
    have := upper l hl
    have positive := l.var_pos
    rw [Assignment.ofVector_isOn drawn.1 l.var, length_values]
    omega
  let g := planting next (.ofVector drawn.1) f t
  have size_eq : (g.size : Int) = clauses := by rw [size_planting, size]
  have count_eq : 0 < clauses → (g.varCount : Int) = vars := by
    rw [varCount_planting]
    exact count
  have satisfied : g.evaluate (.ofVector drawn.1) = .ok true := evaluate_planting total
  have upper_eq : ∀ l ∈ g.literals, (l.var : Int) ≤ vars :=
    forall_vars_planting (fun v => (v : Int) ≤ vars) upper
  refine ⟨g, drawn.1, ?_, size_eq, upper_eq, count_eq, length_values .., satisfied,
    satisfiable_of_holds ?_ satisfied⟩
  · rw [planted_eq, made]
    rfl
  · intro some
    have filled : g.size ≠ 0 := by simpa [Formula.size] using some
    have same := count_eq (by omega)
    rw [length_values]
    omega

theorem planted_eq_error (long : wordLimit ≤ 24 * clauses) :
    planted next vars clauses s =
      .error (if wordLimit ≤ 3 * clauses then .dimensionTooLarge else .arrayTooLarge) := by
  rw [planted_eq, formula_eq_error least positive word (checkLength_eq_error positive long)]
  rfl

end

/-- **Planted formulas are satisfied by their plant.** Whatever numbers the stream gives, the formula
has the clauses and the variables that were asked for, the values are those of the variables
`1, …, vars`, and the formula is true under them. The one thing that can fail is the array of the
draws, which has three entries of eight bytes for every clause. -/
theorem planted_holds (next : Next γ) (s : γ) (vars clauses : Int) (natural : 0 ≤ vars)
    (word : vars < wordLimit) (positive : 0 ≤ clauses) (least : 0 < clauses → 1 ≤ vars) :
    (24 * clauses < wordLimit → ∃ f hidden, planted next vars clauses s = .ok (f, hidden) ∧
      (f.size : Int) = clauses ∧ (0 < clauses → (f.varCount : Int) = vars) ∧
      (hidden.length : Int) = vars ∧ (Assignment.ofVector hidden).IsOn vars.toNat ∧
      f.evaluate (.ofVector hidden) = .ok true ∧ f.solve.satisfiable = true) ∧
    (wordLimit ≤ 24 * clauses → planted next vars clauses s =
      .error (if wordLimit ≤ 3 * clauses then .dimensionTooLarge else .arrayTooLarge)) ∧
    ∀ seed, 0 ≤ seed →
      plantedOfSeed vars clauses seed = planted Lcg.next vars clauses (.ofSeed seed) := by
  refine ⟨fun fits => ?_, planted_eq_error next s least positive word, ?_⟩
  · obtain ⟨f, hidden, made, size, _, count, length, satisfied, told⟩ :=
      planted_eq_ok next s least positive word fits
    have given := Assignment.ofVector_isOn hidden
    rw [length] at given
    exact ⟨f, hidden, made, size, count, by omega, given, satisfied, told⟩
  · intro seed natural
    rw [plantedOfSeed, Lcg.ofSeed?_eq natural]
    rfl

/-- The second clause was `-2 -1 -3` before its last literal was turned round. -/
theorem planted_holds_turned : ∃ f hidden, plantedOfSeed 3 2 25 = .ok (f, hidden) ∧
    f.toInts = [2, -3, -2, -2, -1, 3] ∧ hidden = [true, true, true] ∧
    f.evaluate (.ofVector hidden) = .ok true ∧ f.solve.satisfiable = true := by
  obtain ⟨fitting, _, seeded⟩ := planted_holds Lcg.next (.ofSeed 25) 3 2 (by decide) (by decide)
    (by decide) (by decide)
  obtain ⟨f, hidden, made, _, _, _, _, satisfied, told⟩ := fitting (by decide)
  have read : (planted Lcg.next 3 2 (.ofSeed 25)).map (fun result => (result.1.toInts, result.2)) =
      .ok ([2, -3, -2, -2, -1, 3], [true, true, true]) := by decide +kernel
  rw [made] at read
  obtain ⟨ints, values⟩ := Prod.mk.inj (Except.ok.inj read)
  exact ⟨f, hidden, (seeded 25 (by decide)).trans made, ints, values, satisfied, told⟩

/-- So many clauses that the array of the draws has no length. -/
theorem planted_too_long :
    plantedOfSeed 1 100000000000000000000 0 = .error .dimensionTooLarge ∧
    ¬ ∃ f hidden, plantedOfSeed 1 100000000000000000000 0 = .ok (f, hidden) := by
  have refused : plantedOfSeed 1 100000000000000000000 0 = .error .dimensionTooLarge := by rfl
  refine ⟨refused, ?_⟩
  rintro ⟨f, hidden, made⟩
  rw [refused] at made
  cases made

end VertexCover.Random
