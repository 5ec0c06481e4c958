import VertexCover.Text.Lines

/-! Lines that are written one after the other, each with an end, are read back as they were. -/
namespace VertexCover.Text

variable {line rest : String} {lines : List String}

/-- The text has no line end in it. -/
def OneLine (line : String) : Prop := ∀ c ∈ line.toList, c ≠ '\n' ∧ c ≠ '\r'

instance : Decidable (OneLine line) := List.decidableBAll _ line.toList

theorem OneLine.append (h : OneLine line) (h' : OneLine rest) : OneLine (line ++ rest) := by
  intro c hc
  rw [String.toList_append, List.mem_append] at hc
  exact hc.elim (h c) (h' c)

theorem oneLine_intercalate {sep : String} (between : OneLine sep)
    (h : ∀ line ∈ lines, OneLine line) : OneLine (String.intercalate sep lines) := by
  induction lines with
  | nil => simp [OneLine]
  | cons line lines ih =>
    have first := h line List.mem_cons_self
    have later := ih fun other ho => h other (List.mem_cons_of_mem _ ho)
    cases lines with
    | nil => simpa using first
    | cons next lines =>
      rw [String.intercalate_cons_cons]
      exact (first.append between).append later

theorem scanLines_append {cs : List Char} {line : List Char} (h : ∀ c ∈ line, c ≠ '\n' ∧ c ≠ '\r') :
    scanLines (line ++ '\n' :: cs) = (true, line, if (scanLines cs).1
      then (scanLines cs).2.1 :: (scanLines cs).2.2 else (scanLines cs).2.2) := by
  induction line with
  | nil => simp [scanLines]
  | cons c line ih =>
    have later := ih fun d hd => h d (List.mem_cons_of_mem _ hd)
    obtain ⟨feed, carriage⟩ := h c List.mem_cons_self
    simp [scanLines, later, feed, carriage]

theorem lines_append (h : OneLine line) : Text.lines (line ++ "\n" ++ rest) =
    line :: Text.lines rest := by
  have text : (line ++ "\n" ++ rest).toList = line.toList ++ '\n' :: rest.toList := by simp
  rw [Text.lines, text, scanLines_append h]
  simp [Text.lines]

/-- **Written lines are read back.** -/
theorem lines_join (h : ∀ line ∈ lines, OneLine line) :
    Text.lines (String.join (lines.map (· ++ "\n"))) = lines := by
  induction lines with
  | nil => rfl
  | cons line lines ih =>
    rw [List.map_cons, String.join_cons, lines_append (h line List.mem_cons_self),
      ih fun other ho => h other (List.mem_cons_of_mem _ ho)]

/-- Lines divided by line ends, with one more at the end. -/
theorem intercalate_concat (nonempty : lines ≠ []) :
    String.intercalate "\n" lines ++ "\n" = String.join (lines.map (· ++ "\n")) := by
  induction lines with
  | nil => exact absurd rfl nonempty
  | cons line lines ih =>
    cases lines with
    | nil => simp
    | cons next lines =>
      rw [String.intercalate_cons_cons, List.map_cons, String.join_cons, ← ih (by simp),
        String.append_assoc, String.append_assoc]

end VertexCover.Text
