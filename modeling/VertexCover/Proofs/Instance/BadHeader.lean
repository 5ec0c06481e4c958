import Mathlib.Algebra.Ring.Nat
import VertexCover.Proofs.Instance.Joined
import VertexCover.Proofs.Text.Integer

/-!
# Headers that are no number

Such a header does not say how many rows belong to it. The reader goes on with the line right after
it, so the rows of the block are taken for headers of blocks of their own.

* `readBlocks_bad`: the reader after a header that is no number;
* `Layout.length_eq`: without blank lines the blocks make up all lines;
* `readGraphs_bad_header`: what is read when one header among well-formed blocks is replaced. The
  other blocks come out as before exactly if the block has no rows; rows divided by blanks make an
  error each and move the later blocks by their number.
-/

namespace VertexCover
open Text

variable {b : Block} {before after blocks : List Block} {text : String}

/-! ## Well-formed blocks -/

theorem IsRow.filled {line : String} {row : List Bool} (h : IsRow line row) (nonempty : row ≠ []) :
    isBlankLine line = false := by
  rw [Bool.eq_false_iff, Ne, isBlankLine_iff]
  intro blank
  rcases h with together | divided
  · rw [blank, eq_comm, List.map_eq_nil_iff] at together
    exact nonempty together
  · exact divided.ne_nil blank

namespace Block

/-- The lines of a block. -/
def lines (b : Block) : List String := b.header :: b.body

/-- The block keeps to the grammar. -/
def WellFormed (b : Block) : Prop := ∃ n rows, b.Spells n rows

theorem order_of_read {g : Graph} (read : b.read = .ok g) : g.order = b.body.length := by
  obtain ⟨n, rows, spells, rfl⟩ := read_eq_ok_iff.mp read
  rw [Graph.order, Graph.nodes_ofMatrix, spells.length_rows, spells.enough]
  simp [Label.upTo]

theorem wellFormed_iff : b.WellFormed ↔ ∃ g, b.read = .ok g := by
  constructor
  · rintro ⟨n, rows, spells⟩
    exact ⟨_, read_eq_ok_iff.mpr ⟨n, rows, spells, rfl⟩⟩
  · rintro ⟨g, read⟩
    obtain ⟨n, rows, spells, _⟩ := read_eq_ok_iff.mp read
    exact ⟨n, rows, spells⟩

/-- A row has an entry for every row of its block, so it is not blank. -/
theorem WellFormed.filled (h : b.WellFormed) : ∀ line ∈ b.lines, isBlankLine line = false := by
  obtain ⟨n, rows, spells⟩ := h
  intro line hl
  rcases List.mem_cons.mp hl with rfl | hl
  · exact isBlankLine_of_count spells.count
  · obtain ⟨i, here⟩ := List.mem_iff_getElem?.mp hl
    obtain ⟨row, there, spelled⟩ := getElem?_of_forall₂ spells.lines here
    apply spelled.filled
    rintro rfl
    have width := spells.width [] (List.mem_of_getElem? there)
    have none := List.length_eq_zero_iff.mp (spells.enough.trans width.symm)
    simp [none] at hl

end Block

/-- The lines of blocks that stand one after the other. -/
def fileLines (blocks : List Block) : List String := blocks.flatMap Block.lines

theorem readBlocks_fileLines (h : ∀ b ∈ blocks, b.WellFormed) (rest : List String) :
    readBlocks (fileLines blocks ++ rest) = blocks.map Block.read ++ readBlocks rest := by
  induction blocks with
  | nil => rfl
  | cons b blocks ih =>
    obtain ⟨n, rows, spells⟩ := h b List.mem_cons_self
    have step := b.readBlocks_eq spells.count spells.enough (fileLines blocks ++ rest)
    rw [ih fun c hc => h c (List.mem_cons_of_mem _ hc)] at step
    rw [fileLines, List.flatMap_cons, List.append_assoc]
    exact step

theorem readBlocks_fileLines_eq (h : ∀ b ∈ blocks, b.WellFormed) :
    readBlocks (fileLines blocks) = blocks.map Block.read := by
  have read := readBlocks_fileLines h []
  rwa [List.append_nil, readBlocks, List.append_nil] at read

theorem filled_fileLines (h : ∀ b ∈ blocks, b.WellFormed) :
    ∀ line ∈ fileLines blocks, isBlankLine line = false := by
  intro line hl
  obtain ⟨b, hb, hl⟩ := List.mem_flatMap.mp hl
  exact (h b hb).filled line hl

theorem length_fileLines (blocks : List Block) :
    (fileLines blocks).length = (blocks.map fun b => b.body.length + 1).sum :=
  List.length_flatMap

theorem Layout.length_eq {lines : List String} (h : Layout lines blocks)
    (filled : ∀ line ∈ lines, isBlankLine line = false) :
    lines.length = (blocks.map fun b => b.body.length + 1).sum := by
  induction h with
  | done => rfl
  | blank blank _ _ => simp [blank] at filled
  | block _ _ _ ih =>
    have rest := ih fun line hl => filled line (by simp [hl])
    simp only [List.length_cons, List.length_append, rest, List.map_cons, List.sum_cons]
    omega

/-! ## The reader after a bad header -/

theorem readBlocks_bad (filled : isBlankLine text = false)
    (bad : integer? (strip text.toList) = none) (rest : List String) :
    readBlocks (text :: rest) =
      .error (.header (String.ofList (strip text.toList))) :: readBlocks rest := by
  rw [readBlocks, if_neg (by simp [filled])]
  simp only [bad]

/-- A graph tells how many lines it takes up. -/
theorem sum_lines_eq (h : ∀ c ∈ after, c.WellFormed)
    (same : blocks.map (fun c => c.read.toOption) = after.map fun c => c.read.toOption) :
    (blocks.map fun c => c.body.length + 1).sum = (after.map fun c => c.body.length + 1).sum := by
  induction blocks generalizing after with
  | nil =>
    cases after with
    | nil => rfl
    | cons d after => cases same
  | cons c blocks ih =>
    cases after with
    | nil => cases same
    | cons d after =>
      rw [List.map_cons, List.map_cons, List.cons_eq_cons] at same
      obtain ⟨g, read⟩ := Block.wellFormed_iff.mp (h d List.mem_cons_self)
      have read' : c.read = .ok g := by
        rw [read] at same
        cases found : c.read with
        | error fault => simp [found, Except.toOption] at same
        | ok g' => simpa [found, Except.toOption] using same.1
      have rest := ih (fun e he => h e (List.mem_cons_of_mem _ he)) same.2
      simp only [List.map_cons, List.sum_cons, rest, ← Block.order_of_read read,
        ← Block.order_of_read read']

/-- If the later graphs are read as if a block without its header were not there, it has no rows. -/
theorem body_eq_nil (h : b.WellFormed) (hs : ∀ c ∈ after, c.WellFormed)
    (same : (readBlocks (b.body ++ fileLines after)).map Except.toOption =
      (after.map Block.read).map Except.toOption) : b.body = [] := by
  obtain ⟨blocks, layout⟩ := exists_layout (b.body ++ fileLines after)
  rw [layout.readBlocks_eq, List.map_map, List.map_map] at same
  have filled : ∀ line ∈ b.body ++ fileLines after, isBlankLine line = false := by
    intro line hl
    rcases List.mem_append.mp hl with hl | hl
    · exact h.filled line (List.mem_cons_of_mem _ hl)
    · exact filled_fileLines hs line hl
  have length := layout.length_eq filled
  rw [List.length_append, length_fileLines, sum_lines_eq hs same] at length
  exact List.length_eq_zero_iff.mp (by omega)

/-- A line with a blank inside is no number. -/
theorem readBlocks_spaced {rows : List String}
    (spaced : ∀ line ∈ rows, (strip line.toList).any isBlank = true) (rest : List String) :
    readBlocks (rows ++ rest) =
      (rows.map fun line => .error (.header (String.ofList (strip line.toList)))) ++
        readBlocks rest := by
  induction rows with
  | nil => rfl
  | cons line rows ih =>
    obtain ⟨c, hc, blank⟩ := List.any_eq_true.mp (spaced line List.mem_cons_self)
    have filled : isBlankLine line = false := by
      rw [Bool.eq_false_iff, Ne, isBlankLine_iff]
      intro empty
      simp [empty] at hc
    have bad : integer? (strip line.toList) = none := by
      cases read : integer? (strip line.toList) with
      | none => rfl
      | some n =>
        have letter := (strip_bare line.toList).not_blank_of_integer? read c hc
        simp [blank] at letter
    rw [List.cons_append, readBlocks_bad filled bad,
      ih fun other ho => spaced other (List.mem_cons_of_mem _ ho)]
    rfl

/-! ## Instances -/

namespace Instance

variable {ε α : Type}

theorem number_set (items : List (Except ε α)) (i : Nat) (content : Except ε α) :
    number (items.set i content) = (number items).set i ⟨(i : Int) + 1, content⟩ := by
  apply List.ext_getElem (by simp [number])
  intro j _ _
  by_cases same : i = j
  · subst same
    simp [number]
  · simp [number, List.getElem_set_ne same]

theorem toOption_describe (message : Int → ε → String) (items : List (Except ε α)) :
    ((number items).map (describe message)).map (fun i => i.content.toOption) =
      items.map Except.toOption := by
  apply List.ext_getElem (by simp [number])
  intro i inside _
  have inside : i < items.length := by simpa [number] using inside
  cases content : items[i] with
  | error fault => simp [number, describe, content, Except.toOption]
  | ok a => simp [number, describe, content, Except.toOption]

end Instance

/-- The lines of blocks, with another header for one of them. -/
def replaced (before : List Block) (text : String) (b : Block) (after : List Block) : List String :=
  fileLines before ++ text :: (b.body ++ fileLines after)

section
variable (wellFormed : ∀ c ∈ before ++ b :: after, c.WellFormed)
include wellFormed

theorem readBlocks_before (rest : List String) :
    readBlocks (fileLines before ++ rest) = readBlocks (fileLines before) ++ readBlocks rest := by
  have part : ∀ c ∈ before, c.WellFormed := fun c hc => wellFormed c (List.mem_append_left _ hc)
  rw [readBlocks_fileLines part, readBlocks_fileLines_eq part]

theorem length_before : (readBlocks (fileLines before)).length = before.length := by
  rw [readBlocks_fileLines_eq fun c hc => wellFormed c (List.mem_append_left _ hc),
    List.length_map]

theorem readBlocks_original : readBlocks (fileLines (before ++ b :: after)) =
    readBlocks (fileLines before) ++ b.read :: after.map Block.read := by
  rw [readBlocks_fileLines_eq wellFormed, List.map_append, List.map_cons,
    readBlocks_fileLines_eq fun c hc => wellFormed c (List.mem_append_left _ hc)]

variable (filled : isBlankLine text = false) (bad : integer? (strip text.toList) = none)
include filled bad

theorem readBlocks_replaced : readBlocks (replaced before text b after) =
    readBlocks (fileLines before) ++ .error (.header (String.ofList (strip text.toList))) ::
      readBlocks (b.body ++ fileLines after) := by
  rw [replaced, readBlocks_before wellFormed, readBlocks_bad filled bad]

/-- The rows come right after the error, and what is read of them does not depend on it. -/
theorem readGraphs_replaced : ∃ message later, readGraphs (replaced before text b after) =
      readGraphs (fileLines before) ++ ⟨(before.length : Int) + 1, .error message⟩ :: later ∧
    List.Forall₂ (Moved (before.length + 1)) (readGraphs (b.body ++ fileLines after)) later := by
  have read := readBlocks_replaced wellFormed filled bad
  have cut := readGraphs_eq_cons read
  have moved := readGraphs_moved (List.nil_append _).symm (read.trans (List.append_cons _ _ _))
    (Nat.zero_add _).symm
  rw [length_before wellFormed, Int.add_comm 1] at cut
  rw [List.length_append, length_before wellFormed] at moved
  exact ⟨_, _, cut, moved⟩

theorem readGraphs_kept_iff : (∃ message, readGraphs (replaced before text b after) =
      (readGraphs (fileLines (before ++ b :: after))).set before.length
        ⟨(before.length : Int) + 1, .error message⟩) ↔ b.body = [] := by
  have read := readBlocks_replaced wellFormed filled bad
  have original := readBlocks_original wellFormed
  have later : ∀ c ∈ after, c.WellFormed := fun c hc => wellFormed c (by simp [hc])
  have place := length_before wellFormed
  constructor
  · rintro ⟨message, same⟩
    apply body_eq_nil (wellFormed b (by simp)) later
    -- Only the graphs are compared: the wording of the error does not matter.
    have graphs := congrArg (List.map fun i : Instance String Graph => i.content.toOption) same
    rw [List.map_set, readGraphs, readGraphs, Instance.toOption_describe,
      Instance.toOption_describe, read, original] at graphs
    simpa [← place, Except.toOption] using graphs
  · intro none
    rw [none, List.nil_append, readBlocks_fileLines_eq later] at read
    have set : readBlocks (replaced before text b after) =
        (readBlocks (fileLines (before ++ b :: after))).set before.length
          (.error (.header (String.ofList (strip text.toList)))) := by
      rw [read, original, ← place]
      simp
    rw [readGraphs, set, Instance.number_set, List.map_set, ← readGraphs]
    exact ⟨_, rfl⟩

theorem readGraphs_spaced (spaced : ∀ line ∈ b.body, (strip line.toList).any isBlank = true) :
    ∃ errors later, readGraphs (replaced before text b after) =
        readGraphs (fileLines before) ++ errors ++ later ∧
      errors.length = b.body.length + 1 ∧
      (∀ item ∈ errors, ∃ message, item.content = .error message) ∧
      List.Forall₂ (Moved b.body.length)
        ((readGraphs (fileLines (before ++ b :: after))).drop (before.length + 1)) later := by
  have wholes : ∀ c ∈ after, c.WellFormed := fun c hc => wellFormed c (by simp [hc])
  have place := length_before wellFormed
  let faults := (text :: b.body).map fun line =>
    BlockFault.header (String.ofList (strip line.toList))
  -- The reader up to the last row, then from the next header on.
  have upTo : readBlocks (fileLines before ++ text :: b.body) =
      readBlocks (fileLines before) ++ faults.map .error := by
    have rows := readBlocks_spaced spaced []
    rw [List.append_nil, readBlocks, List.append_nil] at rows
    rw [readBlocks_before wellFormed, readBlocks_bad filled bad, rows]
    simp [faults]
  have read : readBlocks (replaced before text b after) =
      readBlocks (fileLines before ++ text :: b.body) ++ after.map Block.read := by
    rw [readBlocks_replaced wellFormed filled bad, readBlocks_spaced spaced, upTo,
      readBlocks_fileLines_eq wholes]
    simp [faults]
  have original := (readBlocks_original wellFormed).trans (List.append_cons _ _ _)
  have length : (readBlocks (fileLines before ++ text :: b.body)).length =
      (readBlocks (fileLines before) ++ [b.read]).length + b.body.length := by
    simp only [upTo, faults, List.length_append, List.length_map, List.length_cons,
      List.length_nil]
    omega
  have moved := readGraphs_moved original read length
  rw [List.length_append, place, List.length_singleton] at moved
  have errors := readGraphs_eq_append upTo
  rw [drop_readGraphs upTo] at errors
  refine ⟨_, _, (readGraphs_eq_append read).trans (congrArg (· ++ _) errors), ?_, ?_, moved⟩
  · simp [Instance.number, faults]
  · intro item hi
    obtain ⟨i, listed, rfl⟩ := List.mem_map.mp hi
    obtain ⟨fault, _, content⟩ := List.mem_map.mp (Instance.content_mem listed)
    simp [Instance.describe, ← content]

end

/-- **A header that is no number spoils more than its block.** In a file of well-formed blocks let
one header be replaced by a text that is not blank and no number. The blocks before it are read as
they were, it makes an error, and the reader goes on with the first row. The other blocks keep their
numbers and graphs exactly if the block has no rows. Where blanks divide the entries of its rows,
every row makes another error and the later blocks are moved on by the number of rows. -/
theorem readGraphs_bad_header (before after : List Block) (b : Block) (text : String)
    (wellFormed : ∀ c ∈ before ++ b :: after, c.WellFormed)
    (filled : isBlankLine text = false) (bad : integer? (strip text.toList) = none) :
    (∃ message later, readGraphs (replaced before text b after) =
        readGraphs (fileLines before) ++ ⟨(before.length : Int) + 1, .error message⟩ :: later ∧
      List.Forall₂ (Moved (before.length + 1)) (readGraphs (b.body ++ fileLines after)) later) ∧
    ((∃ message, readGraphs (replaced before text b after) =
        (readGraphs (fileLines (before ++ b :: after))).set before.length
          ⟨(before.length : Int) + 1, .error message⟩) ↔ b.body = []) ∧
    ((∀ line ∈ b.body, (strip line.toList).any isBlank = true) →
      ∃ errors later, readGraphs (replaced before text b after) =
          readGraphs (fileLines before) ++ errors ++ later ∧
        errors.length = b.body.length + 1 ∧
        (∀ item ∈ errors, ∃ message, item.content = .error message) ∧
        List.Forall₂ (Moved b.body.length)
          ((readGraphs (fileLines (before ++ b :: after))).drop (before.length + 1)) later) :=
  ⟨readGraphs_replaced wellFormed filled bad, readGraphs_kept_iff wellFormed filled bad,
    readGraphs_spaced wellFormed filled bad⟩

/-- The header of a block of two rows is replaced, with a graph of one node after it. -/
theorem readGraphs_bad_header_spaced : ∃ errors later,
    readGraphs ["x", "0 1", "1 0", "1", "0"] = errors ++ later ∧ errors.length = 3 ∧
    (∀ item ∈ errors, ∃ message, item.content = .error message) ∧
    List.Forall₂ (Moved 2) ((readGraphs ["2", "0 1", "1 0", "1", "0"]).drop 1) later := by
  let b : Block := ⟨"2", ["0 1", "1 0"], by decide⟩
  let c : Block := ⟨"1", ["0"], by decide⟩
  have two : b.read = .ok (.ofMatrix [[false, true], [true, false]]) := by
    unfold b
    rfl
  have one : c.read = .ok (.ofMatrix [[false]]) := by
    unfold c
    rfl
  have wellFormed : ∀ d ∈ [] ++ b :: [c], d.WellFormed := by
    intro d hd
    rw [Block.wellFormed_iff]
    rcases List.mem_cons.mp hd with rfl | hd
    · exact ⟨_, two⟩
    · rw [List.mem_singleton.mp hd]
      exact ⟨_, one⟩
  obtain ⟨_, _, spaced⟩ := readGraphs_bad_header [] [c] b "x" wellFormed (by decide) (by decide)
  obtain ⟨errors, later, read, length, failed, moved⟩ := spaced (by decide)
  have empty : readGraphs (fileLines []) = [] := by
    rw [readGraphs, readBlocks_fileLines_eq (by simp)]
    rfl
  rw [empty, List.nil_append] at read
  exact ⟨errors, later, read, length, failed, moved⟩

/-- Two blocks become four instances when the first header is replaced. -/
theorem readGraphs_bad_header_rows :
    (readGraphs ["2", "0 1", "1 0", "1", "0"]).map (fun i => i.content.toOption.isSome) =
      [true, true] ∧
    (readGraphs ["x", "0 1", "1 0", "1", "0"]).map (fun i => i.content.toOption.isSome) =
      [false, false, false, true] ∧
    ¬ ∃ message, readGraphs ["x", "0 1", "1 0", "1", "0"] =
      (readGraphs ["2", "0 1", "1 0", "1", "0"]).set 0 ⟨1, .error message⟩ := by
  have before : (readGraphs ["2", "0 1", "1 0", "1", "0"]).map
      (fun i => i.content.toOption.isSome) = [true, true] := by
    have layout : Layout ["2", "0 1", "1 0", "1", "0"]
        [⟨"2", ["0 1", "1 0"], by decide⟩, ⟨"1", ["0"], by decide⟩] :=
      .block (b := ⟨"2", ["0 1", "1 0"], by decide⟩) (by decide) (by decide)
        (.block (b := ⟨"1", ["0"], by decide⟩) (by decide) (by decide) .done)
    rw [readGraphs, layout.readBlocks_eq]
    rfl
  have after : (readGraphs ["x", "0 1", "1 0", "1", "0"]).map
      (fun i => i.content.toOption.isSome) = [false, false, false, true] := by
    have layout : Layout ["x", "0 1", "1 0", "1", "0"] [⟨"x", [], by decide⟩,
        ⟨"0 1", [], by decide⟩, ⟨"1 0", [], by decide⟩, ⟨"1", ["0"], by decide⟩] :=
      .block (b := ⟨"x", [], by decide⟩) (by decide) (by decide)
        (.block (b := ⟨"0 1", [], by decide⟩) (by decide) (by decide)
          (.block (b := ⟨"1 0", [], by decide⟩) (by decide) (by decide)
            (.block (b := ⟨"1", ["0"], by decide⟩) (by decide) (by decide) .done)))
    rw [readGraphs, layout.readBlocks_eq]
    rfl
  refine ⟨before, after, ?_⟩
  rintro ⟨message, same⟩
  have lengths := congrArg List.length after
  rw [same, List.map_set, before] at lengths
  cases lengths

end VertexCover
