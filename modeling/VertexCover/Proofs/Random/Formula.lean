import VertexCover.Proofs.Formula.Evaluation
import VertexCover.Proofs.Instance.FormulaLine
import VertexCover.Random.Instances

/-!
# The shape of random formulas

Whatever numbers the stream gives, a draw lies in its range. So the literals of a random formula are
about the variables that were asked for, and the greatest of them occurs because it is put in. The
array of the draws has three entries for every clause, and its size in bytes must fit into a word.

* `below_range`, `mem_many`: draws lie in their range;
* `array_eq`, `checkLength_clauses`: an array of draws is refused for its length only;
* `vars_formula`: the variables of a random formula, in the order of the draws;
* `formula_eq_ok`: a random formula has the clauses and the variables that were asked for;
* `formula_shape`: that, and when there is none.
-/

namespace VertexCover

namespace Random

variable {γ : Type} {next : Next γ} {low high count vars clauses n : Int} {s : γ}
  {drawn : List Int}

/-! ## Draws -/

theorem below_range (next : Next γ) (s : γ) (h : low < high) :
    low ≤ (below next low high s).1 ∧ (below next low high s).1 < high := by
  have wide : 0 < high - low := by omega
  have least := Int.emod_nonneg ((next s).1 : Int) (Int.ne_of_gt wide)
  have most := Int.emod_lt_of_pos ((next s).1 : Int) wide
  have value : (below next low high s).1 = low + (next s).1 % (high - low) := rfl
  omega

theorem length_many (next : Next γ) (low high : Int) (count : Nat) (s : γ) :
    (many next low high count s).1.length = count := by
  induction count generalizing s with
  | zero => rfl
  | succ count ih => exact congrArg (· + 1) (ih (below next low high s).2)

theorem mem_many {count : Nat} (h : low < high) (hn : n ∈ (many next low high count s).1) :
    low ≤ n ∧ n < high := by
  induction count generalizing s with
  | zero => cases hn
  | succ count ih =>
    have split : (many next low high (count + 1) s).1 =
        (below next low high s).1 :: (many next low high count (below next low high s).2).1 := rfl
    rw [split] at hn
    rcases List.mem_cons.mp hn with rfl | hn
    · exact below_range next s h
    · exact ih hn

/-- A length that is not negative is refused if it, or the array in bytes, does not fit. -/
theorem checkLength_eq (least : 0 ≤ count) : checkLength count =
    if wordLimit ≤ count then .error .dimensionTooLarge
    else if wordLimit ≤ count * entryBytes then .error .arrayTooLarge
    else .ok () := by
  have inside : ¬ count < -wordLimit := by
    unfold wordLimit
    omega
  simp [checkLength, inside, Int.not_lt.mpr least]

/-- The array of a formula has three entries for every clause, which take up twenty-four bytes. -/
theorem checkLength_clauses (least : 0 ≤ clauses) : checkLength (3 * clauses) =
    if wordLimit ≤ 3 * clauses then .error .dimensionTooLarge
    else if wordLimit ≤ 24 * clauses then .error .arrayTooLarge
    else .ok () := by
  have bytes : 3 * clauses * entryBytes = 24 * clauses := by
    unfold entryBytes
    omega
  rw [checkLength_eq (by omega), bytes]

theorem checkLength_ok (least : 0 ≤ clauses) (fits : 24 * clauses < wordLimit) :
    checkLength (3 * clauses) = .ok () := by
  rw [checkLength_clauses least, if_neg (by omega), if_neg (by omega)]

theorem checkLength_eq_error (least : 0 ≤ clauses) (long : wordLimit ≤ 24 * clauses) :
    checkLength (3 * clauses) =
      .error (if wordLimit ≤ 3 * clauses then .dimensionTooLarge else .arrayTooLarge) := by
  rw [checkLength_clauses least, if_pos long]
  split <;> rfl

/-- An array over a range of numbers that fit is refused for its length or not at all. -/
theorem array_eq (range : count = 0 ∨ low < high ∧ high ≤ wordLimit) :
    array next low high count s =
      (checkLength count).map fun _ => many next low high count.toNat s := by
  by_cases none : count = 0
  · subst none
    rfl
  · obtain ⟨proper, fits⟩ := range.resolve_left none
    have inside : ¬ wordLimit < high := by omega
    have filled : ¬ high ≤ low := by omega
    simp only [array, none, inside, filled, ↓reduceIte, pure, Except.pure, bind, Except.bind,
      Except.map]

/-! ## The greatest variable -/

theorem length_forceGreatest :
    (forceGreatest next n drawn s).1.length = drawn.length := by
  unfold forceGreatest
  split
  · rfl
  · exact List.length_set

theorem mem_forceGreatest {v : Int} (h : v ∈ (forceGreatest next n drawn s).1) :
    v ∈ drawn ∨ v = n := by
  unfold forceGreatest at h
  split at h
  · exact .inl h
  · exact List.mem_or_eq_of_mem_set h

/-- The place is drawn among those of the list, so the greatest variable is put in. -/
theorem greatest_mem (nonempty : drawn ≠ []) : n ∈ (forceGreatest next n drawn s).1 := by
  have filled : ¬ drawn.isEmpty = true := by simpa using nonempty
  have some : (0 : Int) < drawn.length := by
    have := List.length_pos_iff.mpr nonempty
    omega
  obtain ⟨least, most⟩ := below_range next s some
  rw [forceGreatest, if_neg filled]
  exact List.mem_set (by omega) n

/-! ## Random formulas -/

theorem checkShape_ok (least : 0 < clauses → 1 ≤ vars) : checkShape vars clauses = .ok () := by
  unfold checkShape
  rw [if_neg]
  simp only [Bool.and_eq_true, decide_eq_true_eq, not_and]
  omega

/-- The numbers of the variables of a random formula. -/
def numbers (next : Next γ) (vars clauses : Int) (s : γ) : List Int :=
  (forceGreatest next vars (many next 1 (vars + 1) (3 * clauses).toNat s).1
    (many next 1 (vars + 1) (3 * clauses).toNat s).2).1

theorem length_numbers : (numbers next vars clauses s).length = (3 * clauses).toNat := by
  rw [numbers, length_forceGreatest, length_many]

theorem numbers_range (least : 1 ≤ vars) (h : n ∈ numbers next vars clauses s) :
    1 ≤ n ∧ n ≤ vars := by
  rcases mem_forceGreatest h with drawn | rfl
  · have inside := mem_many (by omega) drawn
    omega
  · omega

theorem natAbs_signed {values signs : List Int} (same : signs.length = values.length) :
    ((values.zip signs).map fun (v, sign) => if sign = 0 then -v else v).map Int.natAbs =
      values.map Int.natAbs := by
  have first : (Int.natAbs ∘ fun (v, sign) => if sign = 0 then -v else v) =
      Int.natAbs ∘ (Prod.fst : Int × Int → Int) := by
    funext ⟨v, sign⟩
    simp only [Function.comp_apply]
    split <;> simp
  rw [List.map_map, first, ← List.map_map, List.map_fst_zip (Nat.le_of_eq same.symm)]

section
variable (next : Next γ) (s : γ) (least : 0 < clauses → 1 ≤ vars) (positive : 0 ≤ clauses)
  (word : vars < wordLimit) (length : checkLength (3 * clauses) = .ok ())
include least positive word length

/-- A formula over numbers that fit into a word, with an array that is not too long, is made, and its
variables are the numbers that were drawn. -/
theorem vars_formula : ∃ f t, formula next vars clauses s = .ok (f, t) ∧
    f.literals.map Literal.var = (numbers next vars clauses s).map Int.natAbs := by
  have drawn : array next 1 (vars + 1) (3 * clauses) s =
      .ok (many next 1 (vars + 1) (3 * clauses).toNat s) := by
    rw [array_eq (by omega), length]
    rfl
  let rest := (forceGreatest next vars (many next 1 (vars + 1) (3 * clauses).toNat s).1
    (many next 1 (vars + 1) (3 * clauses).toNat s).2).2
  let signs := many next 0 2 (numbers next vars clauses s).length rest
  let values := ((numbers next vars clauses s).zip signs.1).map
    fun (v, sign) => if sign = 0 then -v else v
  have sizes : values.map Int.natAbs = (numbers next vars clauses s).map Int.natAbs :=
    natAbs_signed (length_many ..)
  have threes : values.length % 3 = 0 := by
    rw [← List.length_map Int.natAbs, sizes, List.length_map, length_numbers]
    omega
  have nonzero : ∀ v ∈ values, v ≠ 0 := by
    rintro v hv rfl
    have zero : Int.natAbs 0 ∈ values.map Int.natAbs := List.mem_map_of_mem hv
    rw [sizes] at zero
    obtain ⟨u, hu, same⟩ := List.mem_map.mp zero
    have some := List.length_pos_of_mem hu
    rw [length_numbers] at some
    have inside := numbers_range (least (by omega)) hu
    omega
  obtain ⟨f, read, written⟩ := Formula.ofInts_eq_ok threes nonzero
  refine ⟨f, signs.2, ?_, ?_⟩
  · unfold formula
    simp only [checkShape_ok least, drawn, bind, Except.bind]
    split
    · rename_i g same
      cases Except.ok.inj (same.symm.trans read)
      rfl
    · rename_i cause refused
      cases refused.symm.trans read
  · rw [← sizes, ← written, Formula.toInts, List.map_map]
    exact List.map_congr_left fun l _ => l.natAbs_toInt.symm

/-- **A random formula has the shape that was asked for.** -/
theorem formula_eq_ok : ∃ f t, formula next vars clauses s = .ok (f, t) ∧
    (f.size : Int) = clauses ∧ (∀ l ∈ f.literals, (l.var : Int) ≤ vars) ∧
    (0 < clauses → (f.varCount : Int) = vars) := by
  obtain ⟨f, t, made, same⟩ := vars_formula next s least positive word length
  have mem {v : Nat} : (∃ l ∈ f.literals, l.var = v) ↔ ∃ n ∈ numbers next vars clauses s,
      n.natAbs = v := by
    rw [← List.mem_map, same, List.mem_map]
  have size : (f.size : Int) = clauses := by
    have total := congrArg List.length same
    rw [List.length_map, List.length_map, Formula.length_literals, length_numbers] at total
    omega
  have upper : ∀ l ∈ f.literals, (l.var : Int) ≤ vars := by
    intro l hl
    obtain ⟨n, hn, value⟩ := mem.mp ⟨l, hl, rfl⟩
    have some := List.length_pos_of_mem hn
    rw [length_numbers] at some
    have inside := numbers_range (least (by omega)) hn
    omega
  refine ⟨f, t, made, size, upper, fun some => ?_⟩
  have greatest : vars ∈ numbers next vars clauses s := by
    apply greatest_mem
    rw [← List.length_pos_iff, length_many]
    omega
  have one := least some
  have count : f.varCount = vars.toNat := by
    apply Formula.varCount_eq
    · intro l hl
      have := upper l hl
      omega
    · exact mem.mpr ⟨vars, greatest, by omega⟩
  omega

end

/-- A formula whose array is too long is not made. -/
theorem formula_eq_error {fault : Fault} (least : 0 < clauses → 1 ≤ vars) (positive : 0 ≤ clauses)
    (word : vars < wordLimit) (length : checkLength (3 * clauses) = .error fault) :
    formula next vars clauses s = .error fault := by
  have refused : array next 1 (vars + 1) (3 * clauses) s = .error fault := by
    rw [array_eq (by omega), length]
    rfl
  simp only [formula, checkShape_ok least, refused, bind, Except.bind]

/-! ## Seeds -/

theorem Lcg.ofSeed?_eq {seed : Int} (natural : 0 ≤ seed) : Lcg.ofSeed? seed = .ok (.ofSeed seed) :=
  if_neg (Int.not_lt.mpr natural)

/-- A seed that is not negative starts a stream. -/
theorem formulaOfSeed_eq {seed : Int} (least : 0 < clauses → 1 ≤ vars) (natural : 0 ≤ seed) :
    formulaOfSeed vars clauses seed =
      (formula Lcg.next vars clauses (.ofSeed seed)).map Prod.fst := by
  rw [formulaOfSeed, checkShape_ok least, Lcg.ofSeed?_eq natural]
  simp only [bind, Except.bind]
  cases formula Lcg.next vars clauses (.ofSeed seed) with
  | error fault => rfl
  | ok made => rfl

/-- **The shape of a random formula.** Whatever numbers the stream gives, the formula has the clauses
that were asked for, its literals are about the variables `1, …, vars`, and the greatest variable
that occurs is `vars`. The one thing that can fail is the array of the draws, which has three entries
of eight bytes for every clause. The streams of the program are those that a seed starts. -/
theorem formula_shape (next : Next γ) (s : γ) (vars clauses : Int) (least : 1 ≤ vars)
    (word : vars < wordLimit) (filled : 1 ≤ clauses) :
    (24 * clauses < wordLimit → ∃ f t, formula next vars clauses s = .ok (f, t) ∧
      (f.clauses.length : Int) = clauses ∧
      (∀ c ∈ f.clauses, ∀ l ∈ c.literals, 1 ≤ (l.var : Int) ∧ (l.var : Int) ≤ vars) ∧
      (f.varCount : Int) = vars) ∧
    (wordLimit ≤ 24 * clauses → formula next vars clauses s =
      .error (if wordLimit ≤ 3 * clauses then .dimensionTooLarge else .arrayTooLarge)) ∧
    ∀ seed, 0 ≤ seed → formulaOfSeed vars clauses seed =
      (formula Lcg.next vars clauses (.ofSeed seed)).map Prod.fst := by
  have positive : 0 ≤ clauses := by omega
  refine ⟨fun fits => ?_, fun long => ?_, fun seed => formulaOfSeed_eq fun _ => least⟩
  · obtain ⟨f, t, made, size, upper, count⟩ :=
      formula_eq_ok next s (fun _ => least) positive word (checkLength_ok positive fits)
    refine ⟨f, t, made, size, fun c hc l hl => ⟨?_, ?_⟩, count (by omega)⟩
    · have := l.var_pos
      omega
    · exact upper l (Formula.mem_literals hc hl)
  · exact formula_eq_error (fun _ => least) positive word (checkLength_eq_error positive long)

/-- The fifth variable was not drawn: it stands where a four was. -/
theorem formula_shape_forced : ∃ f, formulaOfSeed 5 2 1 = .ok f ∧
    5 ∉ (many Lcg.next 1 6 6 (.ofSeed 1)).1 ∧ f.toInts = [5, -4, -4, 1, 2, -3] ∧
    f.clauses.length = 2 ∧ f.varCount = 5 ∧
    ∀ c ∈ f.clauses, ∀ l ∈ c.literals, 1 ≤ l.var ∧ l.var ≤ 5 := by
  obtain ⟨fitting, _, seeded⟩ := formula_shape Lcg.next (.ofSeed 1) 5 2 (by decide) (by decide)
    (by decide)
  obtain ⟨f, t, made, size, inside, count⟩ := fitting (by decide)
  have read : (formula Lcg.next 5 2 (.ofSeed 1)).map (fun made => made.1.toInts) =
      .ok [5, -4, -4, 1, 2, -3] := by decide +kernel
  have drawn : formulaOfSeed 5 2 1 = .ok f := by
    rw [seeded 1 (by decide), made]
    rfl
  rw [made] at read
  refine ⟨f, drawn, by decide +kernel, Except.ok.inj read, by omega, by omega, ?_⟩
  intro c hc l hl
  have := inside c hc l hl
  omega

/-- So many clauses that the array of the draws has no length. -/
theorem formula_too_long : formulaOfSeed 1 100000000000000000000 0 = .error .dimensionTooLarge ∧
    ¬ ∃ f, formulaOfSeed 1 100000000000000000000 0 = .ok f := by
  have refused : formulaOfSeed 1 100000000000000000000 0 = .error .dimensionTooLarge := by rfl
  refine ⟨refused, ?_⟩
  rintro ⟨f, made⟩
  rw [refused] at made
  cases made

end Random

end VertexCover
