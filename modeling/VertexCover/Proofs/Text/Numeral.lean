import Mathlib.Data.Nat.Digits.Defs
import VertexCover.Proofs.Text.Integer

/-!
# The grammar of integers

An integer is written as a sign or none and then digits of any script, one after the other or with
an underscore between two of them. The reader tests the underscores, counts the digits and looks at
what follows them one after the other; together that accepts the words of the grammar and no others.

* `Digits`: a run of digits, with the values of the digits;
* `digits_iff`: the tests of the reader for such a run;
* `SpellsInteger`: the grammar of an integer;
* `integer?_eq_some_iff`: a word is read as the integer that it spells.
-/

namespace VertexCover.Text

variable {c : Char} {cs text : List Char} {d : Nat} {ds : List Nat} {n : Int}

/-- Digits with at most one underscore between any two of them, and the values of the digits. -/
inductive Digits : List Char → List Nat → Prop where
  | last {c : Char} {d : Nat} : digitValue? c = some d → Digits [c] [d]
  | next {c : Char} {d : Nat} {cs : List Char} {ds : List Nat} :
      digitValue? c = some d → Digits cs ds → Digits (c :: cs) (d :: ds)
  | mark {c : Char} {d : Nat} {cs : List Char} {ds : List Nat} :
      digitValue? c = some d → Digits cs ds → Digits (c :: '_' :: cs) (d :: ds)

/-- Digits after a sign or none, no more of them than the limit, spell an integer. -/
inductive SpellsInteger : List Char → Int → Prop where
  | plain {cs : List Char} {ds : List Nat} : Digits cs ds → ds.length ≤ digitLimit →
      SpellsInteger cs (Nat.ofDigits 10 ds.reverse : Nat)
  | plus {cs : List Char} {ds : List Nat} : Digits cs ds → ds.length ≤ digitLimit →
      SpellsInteger ('+' :: cs) (Nat.ofDigits 10 ds.reverse : Nat)
  | minus {cs : List Char} {ds : List Nat} : Digits cs ds → ds.length ≤ digitLimit →
      SpellsInteger ('-' :: cs) (-(Nat.ofDigits 10 ds.reverse : Nat))

/-! ## Runs of digits -/

theorem digitValue?_mark : digitValue? '_' = none := by decide

theorem ne_of_value {e : Char} (other : digitValue? e = none) (digit : digitValue? c = some d) :
    c ≠ e := by
  rintro rfl
  rw [other] at digit
  cases digit

theorem exists_value (h : isDigitOrMark c = true) (other : c ≠ '_') :
    ∃ d, digitValue? c = some d := by
  rw [isDigitOrMark, Bool.or_eq_true, beq_iff_eq] at h
  exact Option.isSome_iff_exists.mp (h.resolve_left other)

theorem isDigitOrMark_of_value (digit : digitValue? c = some d) : isDigitOrMark c = true := by
  simp [isDigitOrMark, isDigit, digit]

/-- The first character of a run is a digit. -/
theorem Digits.head (h : Digits cs ds) : ∃ c rest d, cs = c :: rest ∧ digitValue? c = some d := by
  cases h with
  | last digit => exact ⟨_, _, _, rfl, digit⟩
  | next digit _ => exact ⟨_, _, _, rfl, digit⟩
  | mark digit _ => exact ⟨_, _, _, rfl, digit⟩

theorem Digits.marks (h : Digits cs ds) : ∀ c ∈ cs, isDigitOrMark c = true := by
  induction h with
  | last digit => simp [isDigitOrMark_of_value digit]
  | next digit _ ih => simpa [isDigitOrMark_of_value digit] using ih
  | mark digit _ ih =>
    have underscore : isDigitOrMark '_' = true := by decide
    simpa [isDigitOrMark_of_value digit, underscore] using ih

theorem Digits.values (h : Digits cs ds) : digitValues cs = ds := by
  induction h with
  | last digit => simp [digitValues, digit]
  | next digit _ ih => simpa [digitValues, digit] using ih
  | mark digit _ ih => simpa [digitValues, digit, digitValue?_mark] using ih

theorem Digits.wellGrouped (h : Digits cs ds) : wellGrouped cs = true := by
  induction h with
  | last digit => simp [Text.wellGrouped, ne_of_value digitValue?_mark digit]
  | next digit later ih =>
    obtain ⟨c, rest, d, rfl, _⟩ := later.head
    simp [Text.wellGrouped, ne_of_value digitValue?_mark digit, ih]
  | mark digit later ih =>
    obtain ⟨c, rest, d, rfl, first⟩ := later.head
    simp [Text.wellGrouped, ne_of_value digitValue?_mark digit,
      ne_of_value digitValue?_mark first, ih]

/-- What the test of the underscores lets through: digits, or digits after one underscore. -/
theorem digits_of_wellGrouped (grouped : wellGrouped cs = true)
    (marks : ∀ c ∈ cs, isDigitOrMark c = true) :
    Digits cs (digitValues cs) ∨ ∃ rest, cs = '_' :: rest ∧ Digits rest (digitValues cs) := by
  induction cs with
  | nil => cases grouped
  | cons c rest ih =>
    -- Behind an underscore the rest must be digits; behind a digit it may be either of the two.
    have first := marks c List.mem_cons_self
    cases rest with
    | nil =>
      have other : c ≠ '_' := by simpa [wellGrouped] using grouped
      obtain ⟨d, digit⟩ := exists_value first other
      left
      simpa [digitValues, digit] using Digits.last digit
    | cons e rest =>
      rw [wellGrouped, Bool.and_eq_true, Bool.or_eq_true, bne_iff_ne, bne_iff_ne] at grouped
      have later := ih grouped.2 fun x hx => marks x (List.mem_cons_of_mem c hx)
      by_cases mark : c = '_'
      · subst mark
        have same : digitValues ('_' :: e :: rest) = digitValues (e :: rest) := by
          simp [digitValues, digitValue?_mark]
        right
        refine ⟨_, rfl, ?_⟩
        rw [same]
        refine later.resolve_right ?_
        rintro ⟨tail, twice, _⟩
        cases twice
        simp at grouped
      · obtain ⟨d, digit⟩ := exists_value first mark
        have values : digitValues (c :: e :: rest) = d :: digitValues (e :: rest) := by
          simp [digitValues, digit]
        left
        rw [values]
        rcases later with plain | ⟨tail, same, plain⟩
        · exact .next digit plain
        · rw [same] at plain ⊢
          exact .mark digit plain

/-- The reader tests for a run of digits by its underscores and its first character. -/
theorem digits_iff : Digits cs ds ↔ (∀ c ∈ cs, isDigitOrMark c = true) ∧ wellGrouped cs = true ∧
    cs.head? ≠ some '_' ∧ digitValues cs = ds := by
  constructor
  · intro digits
    refine ⟨digits.marks, digits.wellGrouped, ?_, digits.values⟩
    obtain ⟨c, rest, d, rfl, first⟩ := digits.head
    simpa using ne_of_value digitValue?_mark first
  · rintro ⟨marks, grouped, head, rfl⟩
    refine (digits_of_wellGrouped grouped marks).resolve_right ?_
    rintro ⟨rest, rfl, _⟩
    exact head rfl

/-! ## Integers -/

theorem valueOfDigits_eq (ds : List Nat) : valueOfDigits ds = Nat.ofDigits 10 ds.reverse := by
  induction ds using List.reverseRecOn with
  | nil => rfl
  | append_singleton ds d ih =>
    rw [valueOfDigits, List.foldl_append, ← valueOfDigits, ih, List.reverse_append]
    simp [Nat.ofDigits_cons, Nat.add_comm]

theorem all_isNumberBlank_iff (letters : ∀ c ∈ cs, isNumberBlank c = false) :
    (cs.dropWhile isDigitOrMark).all isNumberBlank = true ↔ ∀ c ∈ cs, isDigitOrMark c = true := by
  rw [← List.dropWhile_eq_nil_iff, List.all_eq_true]
  constructor
  · intro blank
    apply List.eq_nil_iff_forall_not_mem.mpr
    intro c hc
    have seen := blank c hc
    rw [letters c ((List.dropWhile_suffix isDigitOrMark).subset hc)] at seen
    cases seen
  · intro ended
    simp [ended]

theorem IsWord.isNumberBlank (word : IsWord text) : ∀ c ∈ text, isNumberBlank c = false := by
  intro c hc
  simp [Text.isNumberBlank, word.2 c hc]

/-- In a word nothing can follow the digits, for what may follow them is blank. -/
theorem readInteger_eq_ok_iff (word : IsWord text) : readInteger text = .ok n ↔
    ∃ ds, Digits (readSign text).2 ds ∧ ds.length ≤ digitLimit ∧
      n = if (readSign text).1 then -(valueOfDigits ds : Int) else valueOfDigits ds := by
  have start : text.dropWhile isNumberBlank = text :=
    dropWhile_eq_self fun c hc => word.isNumberBlank c (List.mem_of_mem_head? hc)
  have letters : ∀ c ∈ (readSign text).2, isNumberBlank c = false := by
    obtain ⟨sign, whole, _⟩ := readSign_append text
    intro c hc
    apply word.isNumberBlank
    rw [whole]
    exact List.mem_append_right sign hc
  have ended := all_isNumberBlank_iff letters
  unfold readInteger
  rw [start]
  generalize readSign text = read at ended ⊢
  obtain ⟨negative, body⟩ := read
  dsimp only at ended ⊢
  constructor
  · intro read
    -- The tests in their order: the shape of the run, the number of digits, what follows them.
    split at read
    · cases read
    · rename_i shaped
      split at read
      · cases read
      · rename_i short
        split at read
        · rename_i blank
          have marks := ended.mp blank
          rw [List.takeWhile_eq_self_iff.mpr marks] at shaped short read
          simp only [Bool.or_eq_true, Bool.not_eq_true', beq_iff_eq, not_or,
            Bool.not_eq_false] at shaped
          refine ⟨digitValues body, digits_iff.mpr ⟨marks, shaped.1, shaped.2, rfl⟩, by omega, ?_⟩
          exact (Except.ok.inj read).symm
        · cases read
  · rintro ⟨ds, digits, short, rfl⟩
    obtain ⟨marks, grouped, head, rfl⟩ := digits_iff.mp digits
    rw [List.takeWhile_eq_self_iff.mpr marks, if_neg (by simp [grouped, head]),
      if_neg (by omega), if_pos (ended.mpr marks)]

theorem readSign_of_digits (digits : Digits cs ds) : readSign cs = (false, cs) := by
  obtain ⟨c, rest, d, rfl, first⟩ := digits.head
  have minus : c ≠ '-' := ne_of_value (by decide) first
  have plus : c ≠ '+' := ne_of_value (by decide) first
  simp [readSign, minus, plus]

/-- **A word is read as the integer that it spells.** -/
theorem integer?_eq_some_iff (word : IsWord text) :
    integer? text = some n ↔ SpellsInteger text n := by
  have read : integer? text = some n ↔ readInteger text = .ok n := by
    unfold integer?
    cases readInteger text <;> simp [Except.toOption]
  rw [read, readInteger_eq_ok_iff word]
  simp only [valueOfDigits_eq]
  constructor
  · rintro ⟨ds, digits, short, rfl⟩
    revert digits
    unfold readSign
    split
    · exact fun digits => .minus digits short
    · exact fun digits => .plus digits short
    · exact fun digits => .plain digits short
  · intro spelled
    cases spelled with
    | plain digits short =>
      rw [readSign_of_digits digits]
      exact ⟨_, digits, short, rfl⟩
    | plus digits short => exact ⟨_, digits, short, rfl⟩
    | minus digits short => exact ⟨_, digits, short, rfl⟩

end VertexCover.Text
