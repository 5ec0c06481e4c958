import VertexCover.Formula.Entry
import VertexCover.Formula.Render
import VertexCover.Proofs.Instance.FormulaLine

/-!
# A formula is determined by its texts

Digits and minus signs stand in the texts of a formula for its integers only, so the integers can be
read back from either text, whatever stands around them.

* `numerals`: the runs of digits and minus signs in a text; `numerals_divided`: none of them goes
  across other characters;
* `numerals_render`, `numerals_display`: both texts of a formula have its integers as numerals;
* `texts_determine`: formulas are equal if one of their texts is.
-/

namespace VertexCover

namespace Text

variable {c : Char} {cs gap sep xs ys : List Char} {items : List (List Char)}

/-- A character of a decimal integer. -/
def isNumeral (c : Char) : Bool := c.isDigit || c == '-'

/-- The text with a blank in the place of every other character. -/
def onlyNumerals (cs : List Char) : List Char := cs.map fun c => if isNumeral c then c else ' '

/-- The maximal runs of characters of decimal integers. -/
def numerals (cs : List Char) : List (List Char) := words (onlyNumerals cs)

/-- A text that is not empty and has no character of a decimal integer. -/
def Marks (cs : List Char) : Prop := cs ≠ [] ∧ ∀ c ∈ cs, isNumeral c = false

instance (cs : List Char) : Decidable (Marks cs) :=
  @instDecidableAnd _ _ _ (List.decidableBAll _ cs)

/-- The integers in a text. -/
def integersIn (text : String) : Option (List Int) := (numerals text.toList).mapM integer?

theorem blanks_onlyNumerals (marks : ∀ c ∈ gap, isNumeral c = false) :
    Blanks (onlyNumerals gap) := by
  intro d hd
  obtain ⟨c, hc, rfl⟩ := List.mem_map.mp hd
  rw [if_neg (Bool.eq_false_iff.mp (marks c hc))]
  decide

theorem numerals_append (marks : ∀ c ∈ gap, isNumeral c = false) :
    numerals (gap ++ cs) = numerals cs := by
  rw [numerals, onlyNumerals, List.map_append]
  exact words_append_blanks (blanks_onlyNumerals marks)

/-- No numeral goes across marks. -/
theorem numerals_divided (marks : Marks gap) :
    numerals (xs ++ (gap ++ ys)) = numerals xs ++ numerals ys := by
  obtain ⟨c, gap, rfl⟩ := List.exists_cons_of_ne_nil marks.1
  obtain ⟨mark, later⟩ := List.forall_mem_cons.mp marks.2
  have blank : isBlank (if isNumeral c then c else ' ') = true := by
    rw [if_neg (Bool.eq_false_iff.mp mark)]
    decide
  rw [numerals, onlyNumerals, List.map_append, List.cons_append, List.map_cons,
    words_append_cons blank]
  exact congrArg (numerals xs ++ ·) (numerals_append later)

theorem numerals_intercalate (marks : Marks sep) :
    numerals (sep.intercalate items) = items.flatMap numerals := by
  induction items with
  | nil => rfl
  | cons item items ih =>
    cases items with
    | nil => simp
    | cons next items =>
      rw [List.intercalate_cons_cons, List.append_assoc, numerals_divided marks, ih]
      rfl

/-- A list of texts with one numeral each, enclosed and divided by marks. -/
theorem numerals_listed {α : Type} {before after : List Char} {text numeral : α → List Char}
    (first : Marks before) (between : Marks sep) (last : Marks after) (listed : List α)
    (each : ∀ x, numerals (text x) = [numeral x]) :
    numerals (before ++ (sep.intercalate (listed.map text) ++ after)) = listed.map numeral := by
  have ended (cs : List Char) : numerals (cs ++ after) = numerals cs := by
    have split : numerals (cs ++ (after ++ [])) = numerals cs ++ [] := numerals_divided last
    rwa [List.append_nil, List.append_nil] at split
  rw [numerals_append first.2, ended, numerals_intercalate between, List.flatMap_map,
    List.map_eq_flatMap]
  simp only [each]

theorem isNumeral_writeInteger {n : Int} : ∀ c ∈ writeInteger n, isNumeral c = true := by
  have digits : ∀ c ∈ Nat.toDigits 10 n.natAbs, isNumeral c = true := by
    intro c hc
    rw [isNumeral, isDigit_toDigits hc, Bool.true_or]
  unfold writeInteger
  split
  · exact List.forall_mem_cons.mpr ⟨by decide, digits⟩
  · exact digits

theorem numerals_writeInteger (n : Int) : numerals (writeInteger n) = [writeInteger n] := by
  have same : onlyNumerals (writeInteger n) = writeInteger n := by
    rw [onlyNumerals, List.map_congr_left fun c hc => if_pos (isNumeral_writeInteger c hc),
      List.map_id']
  rw [numerals, same, words_of_isWord (isWord_writeInteger n)]

theorem numerals_padLeft (width : Nat) (cs : List Char) :
    numerals (padLeft width ' ' cs) = numerals cs := by
  refine numerals_append fun c hc => ?_
  rw [List.eq_of_mem_replicate hc]
  decide

end Text

open Text

namespace Formula

variable {f g : Formula}

/-- The display of a formula has its integers as numerals. -/
theorem numerals_display (f : Formula) :
    numerals f.display.toList = f.toInts.map writeInteger := by
  have text : f.display.toList = "CnfFormula([".toList ++
      ((", ".toList).intercalate (f.toInts.map writeInteger) ++ "])".toList) := by
    have items : f.toInts.map (String.toList ∘ ofInteger) = f.toInts.map writeInteger :=
      List.map_congr_left fun n _ => String.toList_ofList
    simp [display, listText, items]
  rw [text]
  exact numerals_listed (by decide) (by decide) (by decide) _ numerals_writeInteger

theorem numerals_clauseText (c : Clause) :
    numerals (clauseText (c.literals.map literalText)).toList =
      c.literals.map fun l => writeInteger l.toInt := by
  have text : (clauseText (c.literals.map literalText)).toList = "(".toList ++
      ("|".toList.intercalate (c.literals.map fun l => padLeft 2 ' ' (writeInteger l.toInt)) ++
        ")".toList) := by
    have items : c.literals.map (String.toList ∘ literalText) =
        c.literals.map fun l => padLeft 2 ' ' (writeInteger l.toInt) :=
      List.map_congr_left fun l _ => String.toList_ofList
    simp [clauseText, items]
  have each (l : Literal) : numerals (padLeft 2 ' ' (writeInteger l.toInt)) =
      [writeInteger l.toInt] := by
    rw [numerals_padLeft, numerals_writeInteger]
  rw [text]
  exact numerals_listed (by decide) (by decide) (by decide) _ each

/-- The text of a formula has its integers as numerals. -/
theorem numerals_render (f : Formula) :
    numerals f.render.toList = f.toInts.map writeInteger := by
  rw [render, String.toList_intercalate, numerals_intercalate (by decide),
    List.map_map, List.flatMap_map, toInts, literals, List.map_map, List.map_flatMap]
  simp only [Function.comp_apply, numerals_clauseText]
  rfl

theorem integersIn_display (small : ∀ l ∈ f.literals, l.var < 10 ^ digitLimit) :
    integersIn f.display = some f.toInts := by
  rw [integersIn, numerals_display, mapM_integer?_toInts small]

theorem integersIn_render (small : ∀ l ∈ f.literals, l.var < 10 ^ digitLimit) :
    integersIn f.render = some f.toInts := by
  rw [integersIn, numerals_render, mapM_integer?_toInts small]

theorem ofRaw_toInts (f : Formula) : ofRaw (f.toInts.map .int) = .ok f := by
  have values : (f.toInts.map RawLiteral.int).mapM RawLiteral.toInt = .ok f.toInts := by
    rw [mapM_eq_ok_iff, List.forall₂_map_left_iff, List.forall₂_same]
    exact fun n _ => rfl
  simp only [ofRaw, values, bind, Except.bind, f.ofInts_toInts]

theorem toInts_inj : f.toInts = g.toInts ↔ f = g := by
  constructor
  · intro same
    have read := f.ofInts_toInts
    rw [same, ofInts_toInts] at read
    exact (Except.ok.inj read).symm
  · exact congrArg toInts

/-- **A formula is determined by each of its texts.** Formulas whose literals have no more digits than
an integer text may have are equal exactly if their literals are, their integers, their texts, or
their displays; and a formula is made again from its integers. -/
theorem texts_determine (hf : ∀ l ∈ f.literals, l.var < 10 ^ digitLimit)
    (hg : ∀ l ∈ g.literals, l.var < 10 ^ digitLimit) :
    (f.literals = g.literals ↔ f = g) ∧ (f.toInts = g.toInts ↔ f = g) ∧
    (f.render = g.render ↔ f = g) ∧ (f.display = g.display ↔ f = g) ∧
    ofRaw (f.toInts.map .int) = .ok f := by
  refine ⟨⟨fun same => ?_, congrArg literals⟩, toInts_inj, ⟨fun same => ?_, congrArg render⟩,
    ⟨fun same => ?_, congrArg display⟩, f.ofRaw_toInts⟩
  · exact toInts_inj.mp (congrArg (List.map Literal.toInt) same)
  · have read := integersIn_render hf
    rw [same, integersIn_render hg] at read
    exact toInts_inj.mp (Option.some.inj read).symm
  · have read := integersIn_display hf
    rw [same, integersIn_display hg] at read
    exact toInts_inj.mp (Option.some.inj read).symm

/-- The same digits in the same order, divided in different places. -/
theorem texts_determine_divided : ∃ f g : Formula,
    f.toInts = [1, 12, -3] ∧ g.toInts = [11, 2, -3] ∧ f.render ≠ g.render ∧
    f.display ≠ g.display ∧ ofRaw (f.toInts.map .int) = .ok f := by
  let literal (n : Nat) (positive : Bool) : Literal := ⟨n + 1, positive, n.succ_pos⟩
  let f : Formula := ⟨[⟨literal 0 true, literal 11 true, literal 2 false⟩]⟩
  let g : Formula := ⟨[⟨literal 10 true, literal 1 true, literal 2 false⟩]⟩
  have small : ∀ h ∈ [f, g], ∀ l ∈ h.literals, l.var < 10 ^ digitLimit := by
    have few : ∀ h ∈ [f, g], ∀ l ∈ h.literals, l.var < 10 ^ 2 := by decide
    intro h hh l hl
    exact (few h hh l hl).trans_le (Nat.pow_le_pow_right (by decide) (by decide))
  have different : f ≠ g := by decide
  obtain ⟨_, _, text, display, again⟩ :=
    texts_determine (small f (by simp)) (small g (by simp))
  exact ⟨f, g, rfl, rfl, mt text.mp different, mt display.mp different, again⟩

end Formula

end VertexCover
