import VertexCover.Instance.Row
import VertexCover.Proofs.Instance.Basic
import VertexCover.Proofs.Text.Blank

/-!
# The grammar of rows

A row is a line that has, between the blanks at its ends, a digit for every entry, either written
together or with blanks between them.

* `RowTokens`, `rowTokens_iff`: how a line is cut;
* `readRow_eq_ok_iff`: these lines are read and no others;
* `isRow_rowText`: rows are written in this form.
-/

namespace VertexCover
open Text

variable {row : List Bool} {cs : List Char} {tokens : List (List Char)}

/-- The digit of an entry. -/
def bit (entry : Bool) : Char := if entry then '1' else '0'

/-- The line spells the row, with its digits written together or divided by blanks. -/
def IsRow (line : String) (row : List Bool) : Prop :=
  strip line.toList = row.map bit ∨
    Divided (strip line.toList) (row.map fun entry => [bit entry])

@[simp] theorem isBlank_bit (entry : Bool) : isBlank (bit entry) = false := by
  revert entry
  decide

theorem isWord_bit (entry : Bool) : IsWord [bit entry] := by
  refine ⟨by simp, fun c hc => ?_⟩
  rw [List.mem_singleton.mp hc]
  exact isBlank_bit entry

theorem not_blank_of_mem_bits {c : Char} (h : c ∈ row.map bit) : isBlank c = false := by
  obtain ⟨entry, _, rfl⟩ := List.mem_map.mp h
  exact isBlank_bit entry

/-! ## Reading -/

theorem readEntry_eq_ok_iff {token : List Char} {entry : Bool} :
    readEntry token = .ok entry ↔ token = [bit entry] := by
  unfold readEntry
  by_cases zero : token = ['0']
  · subst zero
    cases entry <;> simp [bit]
  · by_cases one : token = ['1']
    · subst one
      cases entry <;> simp [bit]
    · cases entry <;> simp [bit, zero, one]

theorem mapM_readEntry_eq_ok_iff {tokens : List (List Char)} :
    tokens.mapM readEntry = .ok row ↔ tokens = row.map fun entry => [bit entry] := by
  simp only [mapM_eq_ok_iff, readEntry_eq_ok_iff]
  rw [← List.forall₂_map_right_iff, List.forall₂_eq_eq_eq]

/-- The text has these tokens: it is cut between any two of its characters, or into several words. -/
inductive RowTokens (cs : List Char) : List (List Char) → Prop where
  | together : (∀ c ∈ cs, isBlank c = false) → RowTokens cs (cs.map ([·]))
  | apart {words : List (List Char)} : Divided cs words → 2 ≤ words.length → RowTokens cs words

theorem rowTokens_iff (bare : Bare cs) : rowTokens cs = tokens ↔ RowTokens cs tokens := by
  unfold rowTokens
  by_cases blank : cs.any isBlank = true
  · have nonempty : cs ≠ [] := by
      rintro rfl
      simp at blank
    rw [if_pos blank, words_eq_iff bare nonempty]
    constructor
    · exact fun divided => .apart divided (divided.any_isBlank_iff.mp blank)
    · intro cut
      cases cut with
      | together letters =>
        obtain ⟨c, hc, set⟩ := List.any_eq_true.mp blank
        simp [letters c hc] at set
      | apart divided _ => exact divided
  · rw [if_neg blank]
    constructor
    · rintro rfl
      exact .together (by simpa using blank)
    · intro cut
      cases cut with
      | together _ => rfl
      | apart divided several => exact absurd (divided.any_isBlank_iff.mpr several) blank

theorem map_singleton_eq_iff :
    cs.map ([·]) = row.map (fun entry => [bit entry]) ↔ cs = row.map bit := by
  have split : row.map (fun entry => [bit entry]) = (row.map bit).map ([·]) := by simp
  rw [split]
  exact List.map_inj_right fun a b same => List.singleton_inj.mp same

/-- The tokens of a bare text are the digits of a row if the text has them written together or
divided by blanks. -/
theorem rowTokens_eq_iff (bare : Bare cs) : rowTokens cs = row.map (fun entry => [bit entry]) ↔
    cs = row.map bit ∨ Divided cs (row.map fun entry => [bit entry]) := by
  rw [rowTokens_iff bare]
  constructor
  · intro cut
    generalize digits : row.map (fun entry => [bit entry]) = tokens at cut
    cases cut with
    | together _ => exact .inl (map_singleton_eq_iff.mp digits.symm)
    | apart divided _ => exact .inr divided
  · rintro (together | divided)
    · rw [← map_singleton_eq_iff.mpr together]
      exact .together fun c hc => not_blank_of_mem_bits (together ▸ hc)
    · by_cases blank : cs.any isBlank = true
      · exact .apart divided (divided.any_isBlank_iff.mp blank)
      · -- Without a blank there is one word, so the row has one entry.
        have letters : ∀ c ∈ cs, isBlank c = false := by simpa using blank
        have single := divided.words.symm.trans (words_of_isWord ⟨divided.ne_nil, letters⟩)
        obtain ⟨entry, rfl, rfl⟩ := List.map_eq_singleton_iff.mp single
        exact .together letters

/-- **A line is read as a row of `n` entries exactly if it spells one.** -/
theorem readRow_eq_ok_iff {line : String} {n : Int} :
    readRow line n = .ok row ↔ (row.length : Int) = n ∧ IsRow line row := by
  have tokens : rowTokens (strip line.toList) = row.map (fun entry => [bit entry]) ↔ _ :=
    rowTokens_eq_iff (strip_bare line.toList)
  unfold readRow IsRow
  dsimp only
  rw [← tokens, ← mapM_readEntry_eq_ok_iff]
  split
  · rename_i length
    constructor
    · intro read
      rw [mapM_readEntry_eq_ok_iff.mp read, List.length_map] at length
      exact ⟨length, read⟩
    · exact And.right
  · rename_i length
    constructor
    · intro failed
      cases failed
    · rintro ⟨width, read⟩
      rw [mapM_readEntry_eq_ok_iff.mp read, List.length_map] at length
      exact absurd width length

/-! ## Writing -/

theorem rowText_toList (row : List Bool) :
    (rowText row).toList = [' '].intercalate (row.map fun entry => [bit entry]) := by
  rw [rowText, String.toList_intercalate, List.map_map]
  congr 1
  apply List.map_congr_left
  intro entry _
  cases entry <;> rfl

theorem rowText_divided (nonempty : row ≠ []) :
    Divided (rowText row).toList (row.map fun entry => [bit entry]) := by
  rw [rowText_toList]
  refine divided_intercalate (by simpa using nonempty) fun word hw => ?_
  obtain ⟨entry, _, rfl⟩ := List.mem_map.mp hw
  exact isWord_bit entry

/-- A written row spells the row. -/
theorem isRow_rowText (row : List Bool) : IsRow (rowText row) row := by
  by_cases empty : row = []
  · subst empty
    exact .inl rfl
  · have divided := rowText_divided empty
    right
    rwa [strip_eq_self divided.bare]

end VertexCover
