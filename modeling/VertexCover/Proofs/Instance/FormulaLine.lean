import VertexCover.Instance.FormulaLine
import VertexCover.Proofs.Formula.Evaluation
import VertexCover.Proofs.Instance.Basic
import VertexCover.Proofs.Text.Quoted

/-!
# Written formulas are read back

A formula is written as the signed integers of its literals with a space between any two of them. A
formula without clauses is an empty line, which is skipped when the file is read.

* `Formula.ofInts_toInts`, `Formula.ofInts_eq_ok`: a formula and its integers determine each other;
* `readFormula_line`: reading the line of a formula;
* `readFormulas_map`: blanks at the ends of lines change nothing;
* `readFormulas_formulaFile`: reading a written file.
-/

namespace VertexCover
open Text

/-! ## Literals and integers -/

theorem Literal.natAbs_toInt (l : Literal) : l.toInt.natAbs = l.var := by
  unfold toInt
  split <;> omega

namespace Formula

variable {f : Formula}

theorem grouped_literals (f : Formula) : grouped f.literals = f.clauses := by
  unfold literals
  induction f.clauses with
  | nil => rfl
  | cons c clauses ih =>
    rw [List.flatMap_cons]
    simp only [Clause.literals, List.cons_append, List.nil_append, grouped, ih]

/-- **A formula is read back from its integers.** -/
theorem ofInts_toInts (f : Formula) : ofInts f.toInts = .ok f := by
  have length : f.toInts.length % 3 = 0 := by
    rw [toInts, List.length_map, length_literals]
    omega
  have literals : f.toInts.mapM Literal.ofInt = .ok f.literals := by
    rw [mapM_eq_ok_iff, toInts, List.forall₂_map_left_iff, List.forall₂_same]
    exact fun l _ => l.ofInt_toInt
  simp [ofInts, length, literals, grouped_literals]

theorem literals_grouped {literals : List Literal} (h : literals.length % 3 = 0) :
    (⟨grouped literals⟩ : Formula).literals = literals := by
  fun_induction grouped literals with
  | case1 a b c rest ih =>
    simp only [List.length_cons] at h
    have split : (⟨⟨a, b, c⟩ :: grouped rest⟩ : Formula).literals =
        [a, b, c] ++ (⟨grouped rest⟩ : Formula).literals := rfl
    rw [split, ih (by omega)]
    rfl
  | case2 literals short =>
    match literals, short, h with
    | [], _, _ => rfl
    | a :: b :: c :: rest, short, _ => exact absurd rfl (short a b c rest)

theorem mapM_ofInt {values : List Int} (nonzero : ∀ n ∈ values, n ≠ 0) :
    ∃ literals, values.mapM Literal.ofInt = .ok literals ∧
      literals.map Literal.toInt = values := by
  simp only [mapM_eq_ok_iff]
  induction values with
  | nil => exact ⟨[], .nil, rfl⟩
  | cons n values ih =>
    obtain ⟨literals, read, written⟩ := ih fun m hm => nonzero m (List.mem_cons_of_mem n hm)
    have first := nonzero n List.mem_cons_self
    refine ⟨⟨n.natAbs, decide (0 < n), by omega⟩ :: literals, .cons (dif_neg first) read, ?_⟩
    have value : (if decide (0 < n) = true then (n.natAbs : Int) else -(n.natAbs : Int)) = n := by
      simp only [decide_eq_true_eq]
      split
      · omega
      · omega
    rw [List.map_cons, written, Literal.toInt, value]

/-- **Integers in threes, none of them zero, are the integers of a formula.** -/
theorem ofInts_eq_ok {values : List Int} (length : values.length % 3 = 0)
    (nonzero : ∀ n ∈ values, n ≠ 0) : ∃ f, ofInts values = .ok f ∧ f.toInts = values := by
  obtain ⟨literals, read, written⟩ := mapM_ofInt nonzero
  have threes : literals.length % 3 = 0 := by
    rwa [← written, List.length_map] at length
  refine ⟨⟨grouped literals⟩, by simp [ofInts, length, read], ?_⟩
  rw [toInts, literals_grouped threes, written]

theorem toInts_eq_nil_iff : f.toInts = [] ↔ f.clauses = [] := by
  rw [← List.length_eq_zero_iff, toInts, List.length_map, length_literals,
    ← List.length_eq_zero_iff, size]
  omega

/-! ## The line of a formula -/

theorem toList_line (f : Formula) :
    f.line.toList = [' '].intercalate (f.toInts.map writeInteger) := by
  rw [line, String.toList_intercalate, List.map_map]
  congr 1
  apply List.map_congr_left
  intro n _
  exact String.toList_ofList

theorem oneLine_line (f : Formula) : OneLine f.line := by
  have space : OneLine " " := by simp [OneLine]
  refine oneLine_intercalate space ?_
  intro part hp
  obtain ⟨n, _, rfl⟩ := List.mem_map.mp hp
  exact oneLine_ofInteger n

theorem divided_line (nonempty : f.clauses ≠ []) :
    Divided f.line.toList (f.toInts.map writeInteger) := by
  rw [toList_line]
  apply divided_intercalate
  · simpa [toInts_eq_nil_iff] using nonempty
  · intro word hw
    obtain ⟨n, _, rfl⟩ := List.mem_map.mp hw
    exact isWord_writeInteger n

/-- Only the line of a formula without clauses is blank. -/
theorem isBlankLine_line : isBlankLine f.line = true ↔ f.clauses = [] := by
  rw [isBlankLine_iff]
  constructor
  · intro blank
    by_contra nonempty
    have divided := divided_line nonempty
    rw [strip_eq_self divided.bare] at blank
    exact divided.ne_nil blank
  · intro empty
    rw [toList_line, toInts_eq_nil_iff.mpr empty]
    rfl

end Formula

/-! ## Reading -/

theorem mapM_integer? {values : List Int} (small : ∀ n ∈ values, n.natAbs < 10 ^ digitLimit) :
    (values.map writeInteger).mapM integer? = some values := by
  induction values with
  | nil => rfl
  | cons n values ih =>
    have first : integer? (writeInteger n) = some n := by
      rw [integer?_writeInteger, if_pos (small n List.mem_cons_self)]
    have later := ih fun m hm => small m (List.mem_cons_of_mem _ hm)
    simp [first, later]

theorem mapM_integer?_toInts {f : Formula} (small : ∀ l ∈ f.literals, l.var < 10 ^ digitLimit) :
    (f.toInts.map writeInteger).mapM integer? = some f.toInts := by
  apply mapM_integer?
  intro n hn
  obtain ⟨l, hl, rfl⟩ := List.mem_map.mp hn
  rw [l.natAbs_toInt]
  exact small l hl

/-- The line of a formula is read as the formula. -/
theorem readFormula_line {f : Formula} (nonempty : f.clauses ≠ [])
    (small : ∀ l ∈ f.literals, l.var < 10 ^ digitLimit) : readFormula f.line = .ok f := by
  have values : (words f.line.toList).mapM integer? = some f.toInts := by
    rw [(Formula.divided_line nonempty).words]
    exact mapM_integer?_toInts small
  rw [readFormula, values]
  exact f.ofInts_toInts

/-- The reader does not see blanks at the ends of lines, line ends included. -/
theorem readFormulas_map {f : String → String}
    (same : ∀ line, strip (f line).toList = strip line.toList) (lines : List String) :
    readFormulas (lines.map f) = readFormulas lines := by
  have read (line : String) : readFormula (f line) = readFormula line := by
    rw [readFormula, readFormula, ← words_strip, same, words_strip]
  have filled : (lines.map f).filter (fun line => !isBlankLine line) =
      (lines.filter fun line => !isBlankLine line).map f := by
    rw [List.filter_map]
    congr 2
    funext line
    exact congrArg not (isBlankLine_congr (same line))
  simp only [readFormulas, filled, List.map_map]
  congr 3
  funext line
  exact read line

theorem lines_formulaFile (formulas : List Formula) :
    Text.lines (formulaFile formulas) = formulas.map Formula.line := by
  have joined : formulaFile formulas =
      String.join ((formulas.map Formula.line).map (· ++ "\n")) := by
    rw [formulaFile, List.map_map]
    rfl
  rw [joined]
  apply lines_join
  intro line hl
  obtain ⟨f, _, rfl⟩ := List.mem_map.mp hl
  exact f.oneLine_line

/-- The lines that are not blank belong to the formulas with clauses. -/
theorem filter_lines (formulas : List Formula) :
    (formulas.map Formula.line).filter (fun line => !isBlankLine line) =
      (formulas.filter fun f => f.clauses ≠ []).map Formula.line := by
  rw [List.filter_map]
  congr 1
  apply List.filter_congr
  intro f _
  rw [Bool.eq_iff_iff, Function.comp_apply, Bool.not_eq_true', Bool.eq_false_iff, Ne,
    Formula.isBlankLine_line, decide_eq_true_iff]

/-- The formulas that are read from a written file are those with a clause. -/
theorem readFormulas_lines {formulas : List Formula}
    (small : ∀ f ∈ formulas, ∀ l ∈ f.literals, l.var < 10 ^ digitLimit) :
    readFormulas (Text.lines (formulaFile formulas)) =
      (formulas.filter fun f => f.clauses ≠ []).mapIdx fun i f => ⟨(i : Int) + 1, .ok f⟩ := by
  rw [lines_formulaFile, readFormulas, filter_lines, List.map_map,
    ← Instance.number_ok formulaMessage]
  congr 2
  apply List.map_congr_left
  intro f hf
  obtain ⟨mem, nonempty⟩ := List.mem_filter.mp hf
  exact readFormula_line (of_decide_eq_true nonempty) (small f mem)

/-- Formulas with clauses are read back, every one. -/
theorem readFormulas_lines_filled {formulas : List Formula}
    (filled : ∀ f ∈ formulas, f.clauses ≠ [])
    (small : ∀ f ∈ formulas, ∀ l ∈ f.literals, l.var < 10 ^ digitLimit) :
    readFormulas (Text.lines (formulaFile formulas)) =
      formulas.mapIdx fun i f => ⟨(i : Int) + 1, .ok f⟩ := by
  have all : formulas.filter (fun f => f.clauses ≠ []) = formulas := by
    rw [List.filter_eq_self]
    intro f hf
    exact decide_eq_true (filled f hf)
  rw [readFormulas_lines small, all]

/-- **Written formulas are read back.** Reading the lines of a written file, with or without their
ends, gives the formulas that have a clause, in their order and numbered from one on; a formula
without clauses leaves no trace. -/
theorem readFormulas_formulaFile (formulas : List Formula)
    (small : ∀ f ∈ formulas, ∀ l ∈ f.literals, l.var < 10 ^ digitLimit) :
    readFormulas (Text.lines (formulaFile formulas)) =
      (formulas.filter fun f => f.clauses ≠ []).mapIdx (fun i f => ⟨(i : Int) + 1, .ok f⟩) ∧
    readFormulas ((Text.lines (formulaFile formulas)).map (· ++ "\n")) =
      (formulas.filter fun f => f.clauses ≠ []).mapIdx (fun i f => ⟨(i : Int) + 1, .ok f⟩) := by
  have read := readFormulas_lines small
  exact ⟨read, (readFormulas_map strip_lineEnd _).trans read⟩

/-- The second of three formulas has no clause, the third repeats a literal. -/
theorem readFormulas_formulaFile_empty : ∃ first third : Formula,
    first.toInts = [1, -2, 3] ∧ third.toInts = [-1, -1, 12] ∧
    formulaFile [first, ⟨[]⟩, third] = "1 -2 3\n\n-1 -1 12\n" ∧
    readFormulas (Text.lines "1 -2 3\n\n-1 -1 12\n") = [⟨1, .ok first⟩, ⟨2, .ok third⟩] := by
  let literal (n : Nat) (positive : Bool) : Literal := ⟨n + 1, positive, n.succ_pos⟩
  let first : Formula := ⟨[⟨literal 0 true, literal 1 false, literal 2 true⟩]⟩
  let third : Formula := ⟨[⟨literal 0 false, literal 0 false, literal 11 true⟩]⟩
  have written : formulaFile [first, ⟨[]⟩, third] = "1 -2 3\n\n-1 -1 12\n" := by decide
  have small : ∀ f ∈ [first, ⟨[]⟩, third], ∀ l ∈ f.literals, l.var < 10 ^ digitLimit := by
    have few : ∀ f ∈ [first, ⟨[]⟩, third], ∀ l ∈ f.literals, l.var < 10 ^ 2 := by decide
    intro f hf l hl
    exact (few f hf l hl).trans_le (Nat.pow_le_pow_right (by decide) (by decide))
  have read := (readFormulas_formulaFile [first, ⟨[]⟩, third] small).1
  rw [written] at read
  exact ⟨first, third, rfl, rfl, written, read⟩

end VertexCover
