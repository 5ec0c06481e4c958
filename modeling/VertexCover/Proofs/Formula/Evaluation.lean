import VertexCover.Formula.Basic

/-! Evaluation under assignments that give a value to every variable of a formula. It never fails,
and it is true exactly if every clause has a literal whose variable has the value of its sign. -/
namespace VertexCover

/-- The assignment gives values to the variables `1, …, n` and to no others. -/
def Assignment.IsOn (a : Assignment) (n : Nat) : Prop :=
  ∀ v, (a v).isSome = true ↔ 1 ≤ v ∧ v ≤ n

/-- The assignment makes the literal true. -/
def Literal.Holds (l : Literal) (a : Assignment) : Prop := a l.var = some l.positive

instance (l : Literal) (a : Assignment) : Decidable (l.Holds a) :=
  inferInstanceAs (Decidable (_ = _))

theorem Assignment.ofVector_succ (values : List Bool) (i : Nat) :
    Assignment.ofVector values (i + 1) = values[i]? := by
  simp [Assignment.ofVector]

theorem Assignment.ofVector_inj {values others : List Bool} :
    Assignment.ofVector values = Assignment.ofVector others ↔ values = others := by
  constructor
  · intro same
    apply List.ext_getElem?
    intro i
    rw [← Assignment.ofVector_succ, same, Assignment.ofVector_succ]
  · exact congrArg Assignment.ofVector

theorem Assignment.ofVector_isOn (values : List Bool) :
    (Assignment.ofVector values).IsOn values.length := by
  intro v
  cases v with
  | zero => simp [Assignment.ofVector]
  | succ i =>
    rw [Assignment.ofVector_succ, isSome_getElem?]
    constructor
    · exact fun inside => ⟨Nat.succ_pos i, inside⟩
    · exact fun inside => inside.2

variable {a : Assignment}

theorem Literal.isTrue_eq {l : Literal} (h : (a l.var).isSome = true) :
    l.isTrue a = .ok (decide (l.Holds a)) := by
  obtain ⟨value, hv⟩ := Option.isSome_iff_exists.mp h
  simp only [Literal.isTrue, Literal.Holds, hv, Option.some.injEq]
  congr

theorem Clause.evaluate_eq {c : Clause} (h : ∀ l ∈ c.literals, (a l.var).isSome = true) :
    c.evaluate a = .ok (c.literals.any fun l => decide (l.Holds a)) := by
  simp only [Clause.literals, List.mem_cons, List.not_mem_nil, or_false, forall_eq_or_imp,
    forall_eq] at h
  obtain ⟨first, second, third⟩ := h
  simp only [Clause.evaluate, Literal.isTrue_eq first, Literal.isTrue_eq second,
    Literal.isTrue_eq third, Clause.literals, List.any_cons, List.any_nil, bind, Except.bind]
  cases decide (c.first.Holds a) <;> cases decide (c.second.Holds a) <;> simp [pure, Except.pure]

namespace Formula

theorem evaluateAll_eq {clauses : List Clause}
    (h : ∀ c ∈ clauses, ∀ l ∈ c.literals, (a l.var).isSome = true) :
    evaluateAll a clauses =
      .ok (clauses.all fun c => c.literals.any fun l => decide (l.Holds a)) := by
  induction clauses with
  | nil => rfl
  | cons c rest ih =>
    have here := Clause.evaluate_eq (h c List.mem_cons_self)
    have later := ih fun d hd => h d (List.mem_cons_of_mem _ hd)
    simp only [evaluateAll, here, later, List.all_cons, bind, Except.bind]
    split
    · rename_i holds
      rw [holds, Bool.true_and]
    · rename_i fails
      rw [Bool.eq_false_iff.mpr fails, Bool.false_and]
      rfl

variable {f : Formula}

theorem le_varCount {l : Literal} (h : l ∈ f.literals) : l.var ≤ f.varCount := by
  have grows (ls : List Literal) (n : Nat) :
      n ≤ ls.foldl (fun most l => max most l.var) n ∧
        ∀ l ∈ ls, l.var ≤ ls.foldl (fun most l => max most l.var) n := by
    induction ls generalizing n with
    | nil => simp
    | cons d rest ih =>
      obtain ⟨least, most⟩ := ih (max n d.var)
      rw [List.foldl_cons]
      refine ⟨by omega, fun e he => ?_⟩
      rcases List.mem_cons.mp he with rfl | he
      · omega
      · exact most e he
  exact (grows f.literals 0).2 l h

theorem varCount_le {n : Nat} (h : ∀ l ∈ f.literals, l.var ≤ n) : f.varCount ≤ n := by
  have grows (ls : List Literal) (start : Nat) (first : start ≤ n) (all : ∀ l ∈ ls, l.var ≤ n) :
      ls.foldl (fun most l => max most l.var) start ≤ n := by
    induction ls generalizing start with
    | nil => exact first
    | cons l ls ih =>
      exact ih _ (Nat.max_le.mpr ⟨first, all l List.mem_cons_self⟩)
        fun k hk => all k (List.mem_cons_of_mem l hk)
  exact grows f.literals 0 (Nat.zero_le n) h

theorem varCount_eq {n : Nat} (upper : ∀ l ∈ f.literals, l.var ≤ n)
    (attained : ∃ l ∈ f.literals, l.var = n) : f.varCount = n := by
  obtain ⟨l, hl, rfl⟩ := attained
  exact Nat.le_antisymm (varCount_le upper) (le_varCount hl)

theorem length_literals (f : Formula) : f.literals.length = 3 * f.size := by
  unfold literals size
  induction f.clauses with
  | nil => rfl
  | cons c clauses ih =>
    rw [List.flatMap_cons, List.length_append, ih, List.length_cons]
    simp only [Clause.literals, List.length_cons, List.length_nil]
    omega

theorem mem_literals {c : Clause} {l : Literal} (hc : c ∈ f.clauses) (hl : l ∈ c.literals) :
    l ∈ f.literals := List.mem_flatMap.mpr ⟨c, hc, hl⟩

/-- An assignment of all variables makes a formula true exactly if it makes a literal of every
clause true. -/
theorem evaluate_eq_true_iff (h : a.IsOn f.varCount) :
    f.evaluate a = .ok true ↔ ∀ c ∈ f.clauses, ∃ l ∈ c.literals, l.Holds a := by
  have total : ∀ c ∈ f.clauses, ∀ l ∈ c.literals, (a l.var).isSome = true := by
    intro c hc l hl
    exact (h l.var).mpr ⟨l.var_pos, le_varCount (mem_literals hc hl)⟩
  rw [evaluate, evaluateAll_eq total]
  simp

end Formula

end VertexCover
