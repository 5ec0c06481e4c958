import Mathlib.Algebra.Group.Nat.Defs
import VertexCover.Proofs.Text.Blank
import VertexCover.Text.Integer

/-!
# Decimal text is read back

Written integers consist of ASCII digits after an optional minus, so the reader sees no blank, no
underscore and no digit of another script in them.

* `readInteger_of_digits`: what is read from a run of ASCII digits after a sign;
* `integer?_writeInteger`: an integer is read back unless it has more than `digitLimit` digits;
* `Bare.not_blank_of_integer?`: a text with a blank inside is no integer.
-/

namespace VertexCover.Text

variable {c : Char} {cs text : List Char}

theorem isDigit_iff : c.isDigit = true ↔ 48 ≤ c.toNat ∧ c.toNat ≤ 57 := by
  simp [Char.isDigit, UInt32.le_iff_toNat_le]

theorem digitValue?_of_isDigit (h : c.isDigit = true) : digitValue? c = some (c.toNat - 48) := by
  obtain ⟨low, high⟩ := isDigit_iff.mp h
  have first : (48 ≤ c.toNat && c.toNat < 48 + 10) = true := by simp; omega
  simp only [digitValue?, zeros, List.find?_cons, first, Option.map_some]

theorem isBlank_of_isDigit (h : c.isDigit = true) : isBlank c = false := by
  obtain ⟨low, high⟩ := isDigit_iff.mp h
  simp only [isBlank, Bool.or_eq_false_iff, Bool.and_eq_false_iff, decide_eq_false_iff_not,
    beq_eq_false_iff_ne]
  omega

theorem isDigitOrMark_of_isDigit (h : c.isDigit = true) : isDigitOrMark c = true := by
  simp [isDigitOrMark, isDigit, digitValue?_of_isDigit h]

theorem ne_mark_of_isDigit (h : c.isDigit = true) : c ≠ '_' := by
  rintro rfl
  exact absurd h (by decide)

theorem wellGrouped_of_digits (nonempty : cs ≠ []) (digits : ∀ c ∈ cs, c.isDigit = true) :
    wellGrouped cs = true := by
  induction cs with
  | nil => exact absurd rfl nonempty
  | cons c cs ih =>
    have head := ne_mark_of_isDigit (digits c List.mem_cons_self)
    cases cs with
    | nil => simp [wellGrouped, head]
    | cons d cs =>
      have rest := ih (by simp) fun e he => digits e (List.mem_cons_of_mem _ he)
      simp [wellGrouped, head, rest]

theorem digitValues_of_digits (digits : ∀ c ∈ cs, c.isDigit = true) :
    digitValues cs = cs.map fun c => c.toNat - 48 := by
  induction cs with
  | nil => rfl
  | cons c cs ih =>
    have rest := ih fun e he => digits e (List.mem_cons_of_mem _ he)
    rw [digitValues] at rest ⊢
    rw [List.filterMap_cons_some (digitValue?_of_isDigit (digits c List.mem_cons_self)), rest,
      List.map_cons]

theorem valueOfDigits_map (cs : List Char) :
    valueOfDigits (cs.map fun c => c.toNat - 48) = Nat.ofDigitChars 10 cs 0 := by
  rw [valueOfDigits, List.foldl_map]
  rfl

/-- What is read from a run of ASCII digits after a sign. -/
theorem readInteger_of_digits {negative : Bool}
    (sign : readSign (text.dropWhile isNumberBlank) = (negative, cs)) (nonempty : cs ≠ [])
    (digits : ∀ c ∈ cs, c.isDigit = true) : readInteger text =
      if digitLimit < cs.length then .error (.tooLong cs.length)
      else .ok (if negative then -(Nat.ofDigitChars 10 cs 0 : Int)
        else Nat.ofDigitChars 10 cs 0) := by
  have marks : ∀ c ∈ cs, isDigitOrMark c = true :=
    fun c hc => isDigitOrMark_of_isDigit (digits c hc)
  have run : cs.takeWhile isDigitOrMark = cs := List.takeWhile_eq_self_iff.mpr marks
  have rest : cs.dropWhile isDigitOrMark = [] := List.dropWhile_eq_nil_iff.mpr marks
  have head : (cs.head? == some '_') = false := by
    cases cs with
    | nil => rfl
    | cons c cs => simpa using ne_mark_of_isDigit (digits c List.mem_cons_self)
  simp only [readInteger, sign, run, rest, head, wellGrouped_of_digits nonempty digits,
    digitValues_of_digits digits, List.length_map, valueOfDigits_map, Bool.not_true, Bool.or_self,
    Bool.false_eq_true, List.all_nil, ↓reduceIte]

theorem isDigit_toDigits {n : Nat} (h : c ∈ Nat.toDigits 10 n) : c.isDigit = true :=
  Nat.isDigit_of_mem_toDigits (by decide) (by decide) h

theorem isWord_toDigits (n : Nat) : IsWord (Nat.toDigits 10 n) :=
  ⟨Nat.toDigits_ne_nil, fun _ hc => isBlank_of_isDigit (isDigit_toDigits hc)⟩

theorem isWord_writeInteger (n : Int) : IsWord (writeInteger n) := by
  obtain ⟨nonempty, letters⟩ := isWord_toDigits n.natAbs
  unfold writeInteger
  split
  · refine ⟨by simp, ?_⟩
    intro c hc
    rcases List.mem_cons.mp hc with rfl | hc
    · decide
    · exact letters c hc
  · exact ⟨nonempty, letters⟩

theorem readSign_toDigits (n : Nat) :
    readSign ((Nat.toDigits 10 n).dropWhile isNumberBlank) = (false, Nat.toDigits 10 n) := by
  have digits := fun c => isDigit_toDigits (c := c) (n := n)
  cases written : Nat.toDigits 10 n with
  | nil => exact absurd written Nat.toDigits_ne_nil
  | cons c cs =>
    have digit := digits c (by simp [written])
    have minus : c ≠ '-' := by rintro rfl; exact absurd digit (by decide)
    have plus : c ≠ '+' := by rintro rfl; exact absurd digit (by decide)
    simp [isNumberBlank, isBlank_of_isDigit digit, readSign, minus, plus]

/-- **Integers are read back** as long as they have no more digits than the reader takes. -/
theorem integer?_writeInteger (n : Int) :
    integer? (writeInteger n) = if n.natAbs < 10 ^ digitLimit then some n else none := by
  have nonempty := Nat.toDigits_ne_nil (b := 10) (n := n.natAbs)
  have digits := fun c => isDigit_toDigits (c := c) (n := n.natAbs)
  have short : (Nat.toDigits 10 n.natAbs).length ≤ digitLimit ↔ n.natAbs < 10 ^ digitLimit :=
    Nat.length_toDigits_le_iff (by decide) (by decide)
  have sign : readSign ((writeInteger n).dropWhile isNumberBlank) =
      (decide (n < 0), Nat.toDigits 10 n.natAbs) := by
    by_cases negative : n < 0
    · have blank : isNumberBlank '-' = false := by decide
      simp [writeInteger, negative, blank, readSign]
    · simpa [writeInteger, negative] using readSign_toDigits n.natAbs
  rw [integer?, readInteger_of_digits sign nonempty digits, Nat.ofDigitChars_ten_toDigits]
  by_cases fits : n.natAbs < 10 ^ digitLimit
  · rw [if_neg (by rw [← short] at fits; omega), if_pos fits]
    have value : (if decide (n < 0) then -(n.natAbs : Int) else n.natAbs) = n := by
      by_cases negative : n < 0
      · rw [if_pos (decide_eq_true negative)]
        omega
      · rw [if_neg (by simpa using negative)]
        omega
    rw [value]
    rfl
  · rw [if_pos (by rw [← short] at fits; omega), if_neg fits]
    rfl

/-! ## No blank inside -/

theorem isBlank_zeros : ∀ start ∈ zeros, ∀ i < 10, isBlank (Char.ofNat (start + i)) = false := by
  decide +kernel

theorem isBlank_of_isDigitOrMark (h : isDigitOrMark c = true) : isBlank c = false := by
  rw [isDigitOrMark, Bool.or_eq_true, beq_iff_eq] at h
  rcases h with rfl | digit
  · decide
  · rw [isDigit, digitValue?, Option.isSome_map, List.find?_isSome] at digit
    obtain ⟨start, listed, within⟩ := digit
    rw [Bool.and_eq_true, decide_eq_true_iff, decide_eq_true_iff] at within
    have run := isBlank_zeros start listed (c.toNat - start) (by omega)
    rwa [Nat.add_sub_cancel' within.1, Char.ofNat_toNat] at run

theorem readSign_append (cs : List Char) :
    ∃ sign, cs = sign ++ (readSign cs).2 ∧ ∀ c ∈ sign, isBlank c = false := by
  unfold readSign
  split
  · exact ⟨['-'], rfl, List.forall_mem_singleton.mpr (by decide)⟩
  · exact ⟨['+'], rfl, List.forall_mem_singleton.mpr (by decide)⟩
  · exact ⟨[], rfl, by simp⟩

/-- What stands after the digits of an integer is blank. -/
theorem blanks_of_integer? {n : Int} (read : integer? cs = some n) :
    Blanks ((readSign (cs.dropWhile isNumberBlank)).2.dropWhile isDigitOrMark) := by
  intro c hc
  unfold integer? readInteger at read
  dsimp only at read
  split at read
  · cases read
  · split at read
    · cases read
    · split at read
      · rename_i blank
        have number := List.all_eq_true.mp blank c hc
        rw [isNumberBlank, Bool.and_eq_true] at number
        exact number.1
      · cases read

/-- An integer is a single word: blanks stand at the ends of its text only. -/
theorem Bare.not_blank_of_integer? {n : Int} (bare : Bare cs) (read : integer? cs = some n) :
    ∀ c ∈ cs, isBlank c = false := by
  have start : cs.dropWhile isNumberBlank = cs :=
    dropWhile_eq_self fun c hc => by simp [isNumberBlank, bare.head c hc]
  have blanks := blanks_of_integer? read
  rw [start] at blanks
  obtain ⟨sign, whole, letters⟩ := readSign_append cs
  generalize (readSign cs).2 = body at whole blanks
  have ended : body.dropWhile isDigitOrMark = [] := by
    by_contra more
    obtain ⟨run, split⟩ := List.dropWhile_suffix isDigitOrMark (l := body)
    have last : cs.getLast? = (body.dropWhile isDigitOrMark).getLast? := by
      conv_lhs => rw [whole, ← split, ← List.append_assoc]
      exact List.getLast?_append_of_ne_nil _ more
    have letter := bare.last _ (last.trans (List.getLast?_eq_getLast_of_ne_nil more))
    simp [blanks _ (List.getLast_mem more)] at letter
  intro c hc
  rw [whole, List.mem_append] at hc
  rcases hc with hc | hc
  · exact letters c hc
  · exact isBlank_of_isDigitOrMark (List.dropWhile_eq_nil_iff.mp ended c hc)

end VertexCover.Text
