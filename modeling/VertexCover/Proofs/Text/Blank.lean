import Mathlib.Data.List.DropRight
import VertexCover.Text.Blank

/-!
# Stripped text and its words

* `Bare`: no blank at either end; `strip_bare`, `strip_eq_self`: stripping gives such a text and
  leaves it as it is;
* `Divided`: words with a run of blanks between any two of them;
* `words_strip`: blanks at the ends do not change the words;
* `words_eq_iff`: for a bare text the words are the ones it is divided into.
-/

namespace VertexCover.Text

variable {cs gap word : List Char} {ws : List (List Char)} {c : Char}

/-- No blank stands at an end of the text. -/
structure Bare (cs : List Char) : Prop where
  head : ∀ c ∈ cs.head?, isBlank c = false
  last : ∀ c ∈ cs.getLast?, isBlank c = false

/-- There are blanks only. -/
def Blanks (cs : List Char) : Prop := ∀ c ∈ cs, isBlank c = true

/-- A text that is not empty and holds no blank. -/
def IsWord (cs : List Char) : Prop := cs ≠ [] ∧ ∀ c ∈ cs, isBlank c = false

theorem IsWord.bare (h : IsWord cs) : Bare cs where
  head := fun c hc => h.2 c (List.mem_of_mem_head? hc)
  last := fun c hc => h.2 c (List.mem_of_mem_getLast? hc)

/-! ## Stripping -/

theorem dropWhile_head {p : Char → Bool} (hc : c ∈ (cs.dropWhile p).head?) : p c = false := by
  have head := List.head?_dropWhile_not p cs
  rw [Option.mem_def.mp hc] at head
  exact Bool.eq_false_iff.mpr (by simpa using head)

theorem strip_bare (cs : List Char) : Bare (strip cs) where
  last := by
    intro c hc
    rw [strip, trim, List.getLast?_reverse] at hc
    exact dropWhile_head hc
  head := by
    intro c hc
    -- What is left after the end is cut starts as the text did before.
    obtain ⟨cut, split⟩ := List.dropWhile_suffix isBlank (l := (cs.dropWhile isBlank).reverse)
    have whole : cs.dropWhile isBlank = strip cs ++ cut.reverse := by
      rw [strip, trim, ← List.reverse_append, split, List.reverse_reverse]
    refine @dropWhile_head cs c isBlank ?_
    rw [whole, List.head?_append, Option.mem_def.mp hc]
    rfl

theorem dropWhile_eq_self {p : Char → Bool} (h : ∀ c ∈ cs.head?, p c = false) :
    cs.dropWhile p = cs := by
  cases cs with
  | nil => rfl
  | cons c cs =>
    have stop : p c = false := h c rfl
    simp [stop]

theorem strip_eq_self (h : Bare cs) : strip cs = cs := by
  have last : ∀ c ∈ cs.reverse.head?, isBlank c = false := by
    intro c hc
    rw [List.head?_reverse] at hc
    exact h.last c hc
  rw [strip, trim, dropWhile_eq_self h.head, dropWhile_eq_self last, List.reverse_reverse]

/-- A blank at the end of a text is not seen. -/
theorem strip_concat (cs : List Char) (h : isBlank c = true) : strip (cs ++ [c]) = strip cs := by
  change (List.dropWhile isBlank (cs ++ [c])).rdropWhile isBlank =
    (cs.dropWhile isBlank).rdropWhile isBlank
  rw [List.dropWhile_append]
  split
  · rename_i blank
    rw [List.isEmpty_iff.mp blank]
    simp [h]
  · exact List.rdropWhile_concat_pos isBlank _ c h

theorem strip_lineEnd (line : String) : strip (line ++ "\n").toList = strip line.toList := by
  rw [String.toList_append]
  exact strip_concat line.toList (by decide)

theorem strip_eq_nil_iff : strip cs = [] ↔ Blanks cs := by
  change (cs.dropWhile isBlank).rdropWhile isBlank = [] ↔ _
  rw [List.rdropWhile_eq_nil_iff]
  constructor
  · intro blank
    apply List.dropWhile_eq_nil_iff.mp
    cases left : cs.dropWhile isBlank with
    | nil => rfl
    | cons c rest =>
      have stop : isBlank c = false := @dropWhile_head cs c isBlank (by simp [left])
      have seen : isBlank c = true := blank c (by simp [left])
      simp [stop] at seen
  · intro blank c hc
    exact blank c ((List.dropWhile_suffix isBlank).subset hc)

theorem isBlankLine_iff {line : String} : isBlankLine line = true ↔ strip line.toList = [] := by
  rw [strip_eq_nil_iff, isBlankLine, List.all_eq_true]
  rfl

theorem isBlankLine_congr {line other : String} (same : strip line.toList = strip other.toList) :
    isBlankLine line = isBlankLine other := by
  rw [Bool.eq_iff_iff, isBlankLine_iff, isBlankLine_iff, same]

/-! ## Words -/

/-- The text consists of the words with a run of blanks between any two of them. -/
inductive Divided : List Char → List (List Char) → Prop where
  | last {word : List Char} : IsWord word → Divided word [word]
  | more {word gap cs : List Char} {ws : List (List Char)} : IsWord word → gap ≠ [] →
      Blanks gap → Divided cs ws → Divided (word ++ (gap ++ cs)) (word :: ws)

theorem Divided.ne_nil (h : Divided cs ws) : cs ≠ [] := by
  cases h with
  | last word => exact word.1
  | more word _ _ _ => simp [word.1]

/-- There is a blank in the text exactly if it has several words. -/
theorem Divided.any_isBlank_iff (h : Divided cs ws) : cs.any isBlank = true ↔ 2 ≤ ws.length := by
  cases h with
  | last word =>
    have letters : cs.any isBlank = false := by simpa using word.2
    simp [letters]
  | @more _ gap _ ws _ opened blanks later =>
    have filled : ws ≠ [] := by cases later <;> exact List.cons_ne_nil _ _
    have several : 2 ≤ ws.length + 1 := Nat.succ_le_succ (List.length_pos_iff.mpr filled)
    obtain ⟨c, hc⟩ := List.exists_mem_of_ne_nil gap opened
    simp only [List.length_cons, several, iff_true, List.any_eq_true]
    exact ⟨c, by simp [hc], blanks c hc⟩

theorem Divided.isWord (h : Divided cs ws) : ∀ word ∈ ws, IsWord word := by
  induction h with
  | last word => simpa using word
  | more word _ _ _ ih => simpa [word] using ih

theorem Divided.bare (h : Divided cs ws) : Bare cs := by
  induction h with
  | last word => exact word.bare
  | more word _ _ later ih =>
    constructor
    · intro c hc
      rw [List.head?_append_of_ne_nil _ word.1] at hc
      exact word.bare.head c hc
    · intro c hc
      rw [← List.append_assoc, List.getLast?_append_of_ne_nil _ later.ne_nil] at hc
      exact ih.last c hc

/-- Words that are written with a space between any two of them. -/
theorem divided_intercalate (nonempty : ws ≠ []) (words : ∀ word ∈ ws, IsWord word) :
    Divided ([' '].intercalate ws) ws := by
  have space : Blanks [' '] := by
    intro c hc
    rw [List.mem_singleton.mp hc]
    decide
  induction ws with
  | nil => exact absurd rfl nonempty
  | cons word ws ih =>
    cases ws with
    | nil =>
      rw [List.intercalate_singleton]
      exact .last (words word List.mem_cons_self)
    | cons next ws =>
      have later := ih (by simp) fun other ho => words other (List.mem_cons_of_mem _ ho)
      rw [List.intercalate_cons_cons, List.append_assoc]
      exact .more (words word List.mem_cons_self) (by simp) space later

theorem scanWords_blank (h : isBlank c = true) : scanWords (c :: cs) = ([], words cs) := by
  simp [scanWords, words, h]

theorem scanWords_append (h : ∀ c ∈ word, isBlank c = false) :
    scanWords (word ++ cs) = (word ++ (scanWords cs).1, (scanWords cs).2) := by
  induction word with
  | nil => rfl
  | cons c word ih =>
    have rest := ih fun d hd => h d (List.mem_cons_of_mem _ hd)
    have letter := h c List.mem_cons_self
    simp [scanWords, rest, letter]

theorem words_append_blanks (h : Blanks gap) : words (gap ++ cs) = words cs := by
  induction gap with
  | nil => rfl
  | cons c gap ih =>
    have rest := ih fun d hd => h d (List.mem_cons_of_mem _ hd)
    rw [List.cons_append, words, scanWords_blank (h c List.mem_cons_self), rest]
    rfl

theorem scanWords_append_blanks (h : Blanks gap) : scanWords (cs ++ gap) = scanWords cs := by
  induction cs with
  | nil =>
    cases gap with
    | nil => rfl
    | cons c gap =>
      have rest : words (gap ++ []) = [] :=
        words_append_blanks fun d hd => h d (List.mem_cons_of_mem _ hd)
      rw [List.append_nil] at rest
      rw [List.nil_append, scanWords_blank (h c List.mem_cons_self), rest]
      rfl
  | cons c cs ih => rw [List.cons_append, scanWords, scanWords, ih]

theorem scanWords_append_cons {xs ys : List Char} (h : isBlank c = true) :
    scanWords (xs ++ c :: ys) = ((scanWords xs).1, (scanWords xs).2 ++ words ys) := by
  induction xs with
  | nil => exact scanWords_blank h
  | cons x xs ih =>
    rw [List.cons_append, scanWords, ih, scanWords]
    dsimp only
    split
    · split <;> rfl
    · rfl

/-- No word goes across a blank. -/
theorem words_append_cons {xs ys : List Char} (h : isBlank c = true) :
    words (xs ++ c :: ys) = words xs ++ words ys := by
  have first : words xs = if (scanWords xs).1.isEmpty then (scanWords xs).2
      else (scanWords xs).1 :: (scanWords xs).2 := rfl
  rw [words, scanWords_append_cons h, first]
  dsimp only
  split <;> rfl

/-- Blanks at the ends of a text do not change its words. -/
theorem words_strip (cs : List Char) : words (strip cs) = words cs := by
  have front : words (cs.dropWhile isBlank) = words cs := by
    conv_rhs => rw [← List.takeWhile_append_dropWhile (p := isBlank) (l := cs)]
    exact (words_append_blanks fun c hc => List.mem_takeWhile_imp hc).symm
  have back (tail : List Char) : words (tail.rdropWhile isBlank) = words tail := by
    conv_rhs => rw [← List.rdropWhile_append_rtakeWhile (p := isBlank) (l := tail)]
    rw [words, words, scanWords_append_blanks fun c hc => List.mem_rtakeWhile_imp hc]
  exact (back _).trans front

theorem words_of_isWord (h : IsWord word) : words word = [word] := by
  have scan : scanWords (word ++ []) = (word ++ [], []) := scanWords_append h.2
  rw [List.append_nil] at scan
  simp [words, scan, h.1]

theorem Divided.words (h : Divided cs ws) : words cs = ws := by
  induction h with
  | last word => exact words_of_isWord word
  | @more word gap cs ws isWord nonempty blanks _ ih =>
    obtain ⟨c, gap, rfl⟩ := List.exists_cons_of_ne_nil nonempty
    have rest : Text.words (gap ++ cs) = ws := by
      rw [words_append_blanks fun d hd => blanks d (List.mem_cons_of_mem _ hd), ih]
    have scan : scanWords (word ++ (c :: gap ++ cs)) = (word, ws) := by
      rw [scanWords_append isWord.2, List.cons_append,
        scanWords_blank (blanks c List.mem_cons_self), rest, List.append_nil]
    rw [Text.words, scan]
    simp [isWord.1]

/-- A bare text is a word, or its first word is followed by blanks and another bare text. -/
theorem Bare.first (bare : Bare cs) (nonempty : cs ≠ []) : IsWord cs ∨ ∃ word gap rest,
    cs = word ++ (gap ++ rest) ∧ IsWord word ∧ gap ≠ [] ∧ Blanks gap ∧ Bare rest ∧ rest ≠ [] := by
  let word := cs.takeWhile fun c => !isBlank c
  let later := cs.dropWhile fun c => !isBlank c
  have split : cs = word ++ later := List.takeWhile_append_dropWhile.symm
  have isWord : IsWord word := by
    refine ⟨?_, fun c hc => by simpa using List.mem_takeWhile_imp hc⟩
    cases cs with
    | nil => exact absurd rfl nonempty
    | cons c cs => simp [word, bare.head c rfl]
  by_cases ended : later = []
  · left
    rwa [split, ended, List.append_nil]
  · right
    let gap := later.takeWhile isBlank
    let rest := later.dropWhile isBlank
    have apart : later = gap ++ rest := List.takeWhile_append_dropWhile.symm
    have blanks : Blanks gap := fun c hc => List.mem_takeWhile_imp hc
    have opened : gap ≠ [] := by
      obtain ⟨c, tail, cons⟩ := List.exists_cons_of_ne_nil ended
      have head : c ∈ later.head? := by simp [cons]
      have stop : isBlank c = true := by simpa using dropWhile_head head
      simp [gap, cons, stop]
    -- The text does not end in a blank, so something follows the gap.
    have goes_on : rest ≠ [] := by
      intro none
      obtain ⟨c, hc⟩ := Option.ne_none_iff_exists'.mp (mt List.getLast?_eq_none_iff.mp opened)
      have last : cs.getLast? = some c := by
        rw [split, apart, none, List.append_nil, List.getLast?_append_of_ne_nil _ opened, hc]
      have letter := bare.last c last
      simp [blanks c (List.mem_of_getLast? hc)] at letter
    refine ⟨word, gap, rest, by rw [← apart]; exact split, isWord, opened, blanks, ?_, goes_on⟩
    refine ⟨fun c hc => dropWhile_head hc, fun c hc => bare.last c ?_⟩
    rw [split, apart, ← List.append_assoc, List.getLast?_append_of_ne_nil _ goes_on]
    exact hc

/-- Every bare text is divided into words in some way. -/
theorem Bare.divided (bare : Bare cs) (nonempty : cs ≠ []) : ∃ ws, Divided cs ws := by
  induction length : cs.length using Nat.strongRecOn generalizing cs with
  | ind n ih =>
    rcases bare.first nonempty with isWord | ⟨word, gap, rest, rfl, isWord, opened, blanks, h⟩
    · exact ⟨[cs], .last isWord⟩
    · have shorter : rest.length < n := by
        have := List.length_pos_iff.mpr isWord.1
        simp only [List.length_append] at length
        omega
      obtain ⟨ws, divided⟩ := ih _ shorter h.1 h.2 rfl
      exact ⟨word :: ws, .more isWord opened blanks divided⟩

/-- The words of a bare text are the ones that it is divided into. -/
theorem words_eq_iff (bare : Bare cs) (nonempty : cs ≠ []) : words cs = ws ↔ Divided cs ws := by
  constructor
  · rintro rfl
    obtain ⟨ws, divided⟩ := bare.divided nonempty
    exact divided.words ▸ divided
  · exact Divided.words

end VertexCover.Text
