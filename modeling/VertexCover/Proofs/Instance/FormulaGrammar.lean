import VertexCover.Proofs.Instance.FormulaLine
import VertexCover.Proofs.Text.Numeral

/-!
# Which lines are read as formulas

A line that is not blank is tested three times: its words must spell integers, there must be three
to a clause, and none may be zero. A line that fails is an instance with the error of the first test
that it fails, and the lines around it do not notice.

* `Formula.ofInts_eq_ok_iff`, `Formula.ofInts_eq_error_iff`: which integers make a formula;
* `SpellsIntegers`: the integers on a line; `Refused`: what is wrong with a line;
* `readFormula_eq_ok_iff`, `readFormula_eq_error_iff`: a line alone;
* `readFormulas_exact`: the numbered formulas of a file.
-/

namespace VertexCover
open Text

variable {line : String} {values others : List Int} {cause : Malformed} {f : Formula}

/-! ## Integers of a formula -/

namespace Literal

theorem ofInt_eq_error_iff {n : Int} : ofInt n = .error cause ↔ n = 0 ∧ cause = .zeroLiteral := by
  unfold ofInt
  split
  · rename_i zero
    simp [zero, eq_comm]
  · rename_i nonzero
    simp [nonzero]

end Literal

namespace Formula

theorem mapM_ofInt_of_zero (zero : 0 ∈ values) :
    values.mapM Literal.ofInt = .error .zeroLiteral := by
  cases read : values.mapM Literal.ofInt with
  | error cause =>
    obtain ⟨n, _, failed⟩ := mapM_eq_error read
    rw [(Literal.ofInt_eq_error_iff.mp failed).2]
  | ok literals =>
    obtain ⟨i, here⟩ := List.mem_iff_getElem?.mp zero
    obtain ⟨l, _, made⟩ := getElem?_of_forall₂ (mapM_eq_ok_iff.mp read) here
    cases made

theorem ofInts_eq_error_iff : ofInts values = .error cause ↔
    (values.length % 3 ≠ 0 ∧ cause = .literalCount values.length) ∨
      values.length % 3 = 0 ∧ 0 ∈ values ∧ cause = .zeroLiteral := by
  by_cases length : values.length % 3 = 0
  · by_cases zero : 0 ∈ values
    · simp [ofInts, length, mapM_ofInt_of_zero zero, zero, eq_comm]
    · have nonzero : ∀ n ∈ values, n ≠ 0 := fun n hn same => zero (same ▸ hn)
      obtain ⟨f, made, _⟩ := ofInts_eq_ok length nonzero
      simp [made, length, zero]
  · simp [ofInts, length, eq_comm]

/-- Integers make the formula that they are the integers of, and no other one. -/
theorem ofInts_eq_ok_iff : ofInts values = .ok f ↔ f.toInts = values := by
  constructor
  · intro made
    have sound : ∀ cause, ofInts values ≠ .error cause := by simp [made]
    have length : values.length % 3 = 0 := by
      by_contra uneven
      exact sound _ (ofInts_eq_error_iff.mpr (.inl ⟨uneven, rfl⟩))
    have nonzero : ∀ n ∈ values, n ≠ 0 := by
      rintro n hn rfl
      exact sound _ (ofInts_eq_error_iff.mpr (.inr ⟨length, hn, rfl⟩))
    obtain ⟨g, same, ints⟩ := ofInts_eq_ok length nonzero
    cases made.symm.trans same
    exact ints
  · rintro rfl
    exact f.ofInts_toInts

theorem exists_toInts_eq_iff :
    (∃ f : Formula, f.toInts = values) ↔ values.length % 3 = 0 ∧ 0 ∉ values := by
  constructor
  · rintro ⟨f, rfl⟩
    constructor
    · rw [toInts, List.length_map, length_literals]
      omega
    · intro zero
      obtain ⟨l, _, same⟩ := List.mem_map.mp zero
      exact l.toInt_ne_zero same
  · rintro ⟨length, zero⟩
    obtain ⟨f, _, ints⟩ := ofInts_eq_ok length fun n hn same => zero (same ▸ hn)
    exact ⟨f, ints⟩

end Formula

/-! ## The integers on a line -/

/-- The line has a word for every integer, with blanks between the words, that spells it. -/
def SpellsIntegers (line : String) (values : List Int) : Prop :=
  ∃ ws, Divided (strip line.toList) ws ∧ List.Forall₂ SpellsInteger ws values

theorem mapM_integer?_eq_some_iff {ws : List (List Char)} (isWord : ∀ word ∈ ws, IsWord word) :
    ws.mapM integer? = some values ↔ List.Forall₂ SpellsInteger ws values := by
  induction ws generalizing values with
  | nil => cases values <;> simp
  | cons word ws ih =>
    obtain ⟨here, later⟩ := List.forall_mem_cons.mp isWord
    rw [List.mapM_cons]
    cases values with
    | nil => cases integer? word <;> cases ws.mapM integer? <;> simp
    | cons n values =>
      rw [List.forall₂_cons, ← integer?_eq_some_iff here, ← ih later]
      cases integer? word <;> cases ws.mapM integer? <;> simp

/-- The words that the reader sees are those that the line is divided into. -/
theorem mapM_words_eq_some_iff (filled : isBlankLine line = false) :
    (words line.toList).mapM integer? = some values ↔ SpellsIntegers line values := by
  have nonempty : strip line.toList ≠ [] := by
    rw [Ne, ← isBlankLine_iff, filled]
    exact Bool.false_ne_true
  obtain ⟨ws, divided⟩ := (strip_bare line.toList).divided nonempty
  rw [← words_strip, divided.words, mapM_integer?_eq_some_iff divided.isWord]
  constructor
  · exact fun spelled => ⟨ws, divided, spelled⟩
  · rintro ⟨others, same, spelled⟩
    rwa [← divided.words, same.words]

/-! ## A line alone -/

/-- What is wrong with a line: the first test that it fails. -/
inductive Refused (line : String) : Malformed → Prop where
  | word : (∀ values, ¬ SpellsIntegers line values) →
      Refused line (.formulaLine (String.ofList (strip line.toList)))
  | count {values : List Int} : SpellsIntegers line values → values.length % 3 ≠ 0 →
      Refused line (.literalCount values.length)
  | zero {values : List Int} : SpellsIntegers line values → values.length % 3 = 0 → 0 ∈ values →
      Refused line .zeroLiteral

section
variable (filled : isBlankLine line = false)
include filled

theorem readFormula_of_spells (spelled : SpellsIntegers line values) :
    readFormula line = Formula.ofInts values := by
  rw [readFormula, (mapM_words_eq_some_iff filled).mpr spelled]

theorem readFormula_of_not_spells (unspelled : ∀ values, ¬ SpellsIntegers line values) :
    readFormula line = .error (.formulaLine (String.ofList (strip line.toList))) := by
  have unread : (words line.toList).mapM integer? = none := by
    rw [Option.eq_none_iff_forall_ne_some]
    intro values read
    exact unspelled values ((mapM_words_eq_some_iff filled).mp read)
  rw [readFormula, unread]

theorem SpellsIntegers.unique (spelled : SpellsIntegers line values)
    (other : SpellsIntegers line others) : others = values := by
  have same := (mapM_words_eq_some_iff filled).mpr other
  rw [(mapM_words_eq_some_iff filled).mpr spelled] at same
  exact (Option.some.inj same).symm

/-- **A line is read as the formula whose integers it spells.** -/
theorem readFormula_eq_ok_iff : readFormula line = .ok f ↔ SpellsIntegers line f.toInts := by
  by_cases spelled : ∃ values, SpellsIntegers line values
  · obtain ⟨values, spelled⟩ := spelled
    rw [readFormula_of_spells filled spelled, Formula.ofInts_eq_ok_iff]
    constructor
    · rintro rfl
      exact spelled
    · exact spelled.unique filled
  · have unspelled := not_exists.mp spelled
    simp [readFormula_of_not_spells filled unspelled, unspelled]

/-- **A line is refused by the first test that it fails.** -/
theorem readFormula_eq_error_iff : readFormula line = .error cause ↔ Refused line cause := by
  by_cases spelled : ∃ values, SpellsIntegers line values
  · obtain ⟨values, spelled⟩ := spelled
    rw [readFormula_of_spells filled spelled, Formula.ofInts_eq_error_iff]
    constructor
    · rintro (⟨uneven, rfl⟩ | ⟨length, zero, rfl⟩)
      · exact .count spelled uneven
      · exact .zero spelled length zero
    · intro refused
      cases refused with
      | word unspelled => exact absurd spelled (unspelled values)
      | count other uneven =>
        obtain rfl := spelled.unique filled other
        exact .inl ⟨uneven, rfl⟩
      | zero other length zero =>
        obtain rfl := spelled.unique filled other
        exact .inr ⟨length, zero, rfl⟩
  · have unspelled := not_exists.mp spelled
    rw [readFormula_of_not_spells filled unspelled, Except.error.injEq]
    constructor
    · rintro rfl
      exact .word unspelled
    · intro refused
      cases refused with
      | word _ => rfl
      | count other _ => exact absurd other (unspelled _)
      | zero other _ _ => exact absurd other (unspelled _)

end

/-! ## The lines of a file -/

/-- The instance that a line makes at a number. -/
def formulaInstance (index : Int) (line : String) : Instance String Formula :=
  Instance.describe formulaMessage ⟨index, readFormula line⟩

theorem readFormulas_eq (lines : List String) : readFormulas lines =
    (lines.filter fun line => !isBlankLine line).mapIdx fun i line =>
      formulaInstance ((i : Int) + 1) line :=
  Instance.number_describe formulaMessage readFormula _

theorem content_formulaInstance_eq_ok_iff {index : Int} :
    (formulaInstance index line).content = .ok f ↔ readFormula line = .ok f :=
  Instance.content_describe

theorem content_formulaInstance_eq_error_iff {index : Int} {message : String} :
    (formulaInstance index line).content = .error message ↔
      ∃ cause, readFormula line = .error cause ∧ message = formulaMessage index cause := by
  unfold formulaInstance Instance.describe
  cases readFormula line <;> simp [eq_comm]

/-- **Formula files are read line by line.** There is one instance for every line that is not blank,
in the order of the lines and numbered from one on, and it is made of the number and the line alone.
It holds a formula exactly if every word of the line spells an integer, the integers come in threes
and none of them is zero; the integers of the formula are then those that the line spells. Every
other instance holds the error of the first test that its line fails, with its own number in it. -/
theorem readFormulas_exact (lines : List String) :
    readFormulas lines = (lines.filter fun line => !isBlankLine line).mapIdx
      (fun i line => formulaInstance ((i : Int) + 1) line) ∧
    ∀ (index : Int) (line : String), isBlankLine line = false →
      (formulaInstance index line).index = index ∧
      ((∃ f, (formulaInstance index line).content = .ok f) ↔
        ∃ values, SpellsIntegers line values ∧ values.length % 3 = 0 ∧ 0 ∉ values) ∧
      (∀ f values, (formulaInstance index line).content = .ok f →
        (SpellsIntegers line values ↔ f.toInts = values)) ∧
      ∀ message, (formulaInstance index line).content = .error message ↔
        ∃ cause, Refused line cause ∧ message = formulaMessage index cause := by
  refine ⟨readFormulas_eq lines, fun index line filled => ⟨rfl, ?_, ?_, fun message => ?_⟩⟩
  · simp only [content_formulaInstance_eq_ok_iff, readFormula_eq_ok_iff filled,
      ← Formula.exists_toInts_eq_iff]
    constructor
    · rintro ⟨f, spelled⟩
      exact ⟨_, spelled, f, rfl⟩
    · rintro ⟨_, spelled, f, rfl⟩
      exact ⟨f, spelled⟩
  · intro f values read
    have spelled := (readFormula_eq_ok_iff filled).mp (content_formulaInstance_eq_ok_iff.mp read)
    constructor
    · exact fun other => other.unique filled spelled
    · rintro rfl
      exact spelled
  · simp only [content_formulaInstance_eq_error_iff, readFormula_eq_error_iff filled]

example : (readFormulas ["1 x 2", "\t", "0 1 2", "٣ -4 +0_5"]).map (fun item =>
    (item.index, item.content.toOption.map Formula.toInts)) =
      [(1, none), (2, none), (3, some [3, -4, 5])] := by decide +kernel

end VertexCover
