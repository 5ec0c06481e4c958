import VertexCover.Proofs.Instance.Row

/-!
# Which lines are read as rows

The number of the tokens of a line is tested before the tokens are. A mixture, such as digits of which
only some are written together, is cut at its blanks and so has a token that is no digit.

* `Misread`, `readRow_eq_error_iff`: what is wrong with a line that is refused;
* `IsRow.unique`: a line spells one row at most;
* `readRow_grammar`: the lines that are read, and those that are refused.
-/

namespace VertexCover
open Text

variable {line : String} {n : Int} {row other : List Bool} {cause : Malformed}

/-! ## Refusals -/

theorem readEntry_eq_error_iff {token : List Char} : readEntry token = .error cause ↔
    (∀ entry, token ≠ [bit entry]) ∧ cause = .rowEntry (String.ofList token) := by
  cases read : readEntry token with
  | ok entry =>
    constructor
    · intro failed
      cases failed
    · rintro ⟨unread, _⟩
      exact absurd (readEntry_eq_ok_iff.mp read) (unread entry)
  | error first =>
    have unread : ∀ entry, token ≠ [bit entry] := by
      intro entry digit
      cases read.symm.trans (readEntry_eq_ok_iff.mpr digit)
    have named : first = .rowEntry (String.ofList token) := by
      have zero : token ≠ ['0'] := unread false
      have one : token ≠ ['1'] := unread true
      rw [readEntry, if_neg zero, if_neg one] at read
      exact (Except.error.inj read).symm
    rw [Except.error.injEq, named, eq_comm]
    exact ⟨fun same => ⟨unread, same⟩, And.right⟩

/-- What is wrong with a line: the number of its tokens, or else the first token that is no digit. -/
inductive Misread (line : String) (n : Int) : Malformed → Prop where
  | length {tokens : List (List Char)} : RowTokens (strip line.toList) tokens →
      (tokens.length : Int) ≠ n →
      Misread line n (.rowLength n tokens.length (String.ofList (strip line.toList)))
  | entry {before after : List (List Char)} {token : List Char} :
      RowTokens (strip line.toList) (before ++ token :: after) →
      ((before ++ token :: after).length : Int) = n →
      (∀ digit ∈ before, ∃ entry, digit = [bit entry]) → (∀ entry, token ≠ [bit entry]) →
      Misread line n (.rowEntry (String.ofList token))

/-- **A line is refused by the first test that it fails.** -/
theorem readRow_eq_error_iff : readRow line n = .error cause ↔ Misread line n cause := by
  have cut : RowTokens (strip line.toList) (rowTokens (strip line.toList)) :=
    (rowTokens_iff (strip_bare _)).mp rfl
  have only {tokens : List (List Char)} (h : RowTokens (strip line.toList) tokens) :
      rowTokens (strip line.toList) = tokens := (rowTokens_iff (strip_bare _)).mpr h
  unfold readRow
  dsimp only
  split
  · rename_i length
    rw [mapM_eq_error_iff]
    simp only [readEntry_eq_ok_iff, readEntry_eq_error_iff]
    constructor
    · rintro ⟨before, token, after, split, digits, wrong, rfl⟩
      rw [split] at cut length
      exact .entry cut length digits wrong
    · intro misread
      cases misread with
      | length other wrong =>
        rw [only other] at length
        exact absurd length wrong
      | entry other _ digits wrong => exact ⟨_, _, _, only other, digits, wrong, rfl⟩
  · rename_i length
    rw [Except.error.injEq]
    constructor
    · rintro rfl
      exact .length cut length
    · intro misread
      cases misread with
      | length other _ => rw [only other]
      | entry other width _ _ =>
        rw [only other] at length
        exact absurd width length

/-! ## One reading -/

theorem IsRow.unique (h : IsRow line row) (k : IsRow line other) : row = other := by
  have bare := strip_bare line.toList
  have same := ((rowTokens_eq_iff bare).mpr h).symm.trans ((rowTokens_eq_iff bare).mpr k)
  refine (List.map_inj_right fun a b same => ?_).mp same
  revert a b
  decide

/-- **The grammar of rows.** A line is read as a row exactly if the row has the number of entries that
is asked for and the line spells it, with its digits written together or with blanks between them.
Every other line is refused, for the number of its tokens or for the first of them that is no digit.
So a line has one reading at most, for one number of entries, and the lines that spell a row are read
alike. -/
theorem readRow_grammar :
    (∀ line n row, readRow line n = .ok row ↔ (row.length : Int) = n ∧ IsRow line row) ∧
    (∀ line n, (∃ cause, readRow line n = .error cause) ↔
      ¬ ∃ row : List Bool, (row.length : Int) = n ∧ IsRow line row) ∧
    (∀ line n cause, readRow line n = .error cause ↔ Misread line n cause) ∧
    (∀ line m n row other, readRow line m = .ok row → readRow line n = .ok other →
      m = n ∧ row = other) ∧
    ∀ line line' row, IsRow line row → IsRow line' row →
      ∀ n other, readRow line n = .ok other ↔ readRow line' n = .ok other := by
  refine ⟨fun _ _ _ => readRow_eq_ok_iff, fun line n => ?_, fun _ _ _ => readRow_eq_error_iff, ?_, ?_⟩
  · simp only [← readRow_eq_ok_iff]
    cases readRow line n <;> simp
  · intro line m n row other read read'
    obtain ⟨width, spelled⟩ := readRow_eq_ok_iff.mp read
    obtain ⟨width', spelled'⟩ := readRow_eq_ok_iff.mp read'
    obtain rfl := spelled.unique spelled'
    exact ⟨width.symm.trans width', rfl⟩
  · intro line line' row spelled spelled' n other
    rw [readRow_eq_ok_iff, readRow_eq_ok_iff]
    constructor
    · rintro ⟨width, h⟩
      exact ⟨width, spelled.unique h ▸ spelled'⟩
    · rintro ⟨width, h⟩
      exact ⟨width, spelled'.unique h ▸ spelled⟩

example : readRow " 01 1\n" 3 = .error (.rowLength 3 2 "01 1") := by rfl

end VertexCover
