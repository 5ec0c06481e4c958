import VertexCover.Proofs.Instance.GraphBlock
import VertexCover.Proofs.Text.Quoted

/-!
# Written graphs are read back

The lines of a written file fall into the blocks of the graphs, each with a header in decimal digits
and the rows of the matrix. A graph comes back with its nodes numbered in their order, and since
numbering does not change the matrix, it is written the same way again.

* `lines_graphFile`: the lines of a written file;
* `readBlocks_blockLines`: reading the lines of one graph, whatever follows;
* `readGraphs_graphFile`: reading a written file, and writing it again.

Only counts of at most `digitLimit` digits are read, which leaves room for every graph in practice.
-/

namespace VertexCover
open Text

variable {g : Graph} {n : Nat}

/-- The lines of the block of a graph. -/
def Graph.blockLines (g : Graph) : List String := ofNatural g.order :: g.matrix.map rowText

/-! ## Writing -/

theorem oneLine_rowText (row : List Bool) : OneLine (rowText row) := by
  have space : OneLine " " := by simp [OneLine]
  refine oneLine_intercalate space fun part hp => ?_
  obtain ⟨entry, _, rfl⟩ := List.mem_map.mp hp
  cases entry <;> simp [OneLine]

theorem oneLine_blockLines (g : Graph) : ∀ line ∈ g.blockLines, OneLine line := by
  intro line hl
  rcases List.mem_cons.mp hl with rfl | hl
  · exact oneLine_ofNatural g.order
  · obtain ⟨row, _, rfl⟩ := List.mem_map.mp hl
    exact oneLine_rowText row

theorem graphFile_eq_join (graphs : List Graph) :
    graphFile graphs = String.join ((graphs.flatMap Graph.blockLines).map (· ++ "\n")) := by
  induction graphs with
  | nil => rfl
  | cons g graphs ih =>
    have block : g.block ++ "\n" = String.join (g.blockLines.map (· ++ "\n")) :=
      intercalate_concat (List.cons_ne_nil _ _)
    have split : graphFile (g :: graphs) = g.block ++ "\n" ++ graphFile graphs := String.join_cons
    rw [split, block, ih, List.flatMap_cons, List.map_append, String.join_append]

theorem lines_graphFile (graphs : List Graph) :
    Text.lines (graphFile graphs) = graphs.flatMap Graph.blockLines := by
  rw [graphFile_eq_join]
  refine lines_join fun line hl => ?_
  obtain ⟨g, _, hl⟩ := List.mem_flatMap.mp hl
  exact oneLine_blockLines g line hl

/-! ## Reading -/

theorem integer?_ofNatural (small : n < 10 ^ digitLimit) :
    integer? (strip (ofNatural n).toList) = some (n : Int) := by
  have written : Nat.toDigits 10 n = writeInteger (n : Int) := by simp [writeInteger]
  rw [ofNatural, String.toList_ofList, strip_eq_self (isWord_toDigits n).bare, written,
    integer?_writeInteger, Int.natAbs_natCast, if_pos small]

theorem isBlankLine_ofNatural (n : Nat) : isBlankLine (ofNatural n) = false := by
  rw [Bool.eq_false_iff, Ne, isBlankLine_iff, ofNatural, String.toList_ofList,
    strip_eq_self (isWord_toDigits n).bare]
  exact Nat.toDigits_ne_nil

theorem forall₂_isRow_rowText (rows : List (List Bool)) :
    List.Forall₂ IsRow (rows.map rowText) rows := by
  rw [List.forall₂_map_left_iff, List.forall₂_same]
  exact fun row _ => isRow_rowText row

/-- The lines of a graph are read as the graph of its matrix. -/
theorem readBlocks_blockLines (small : g.order < 10 ^ digitLimit) (rest : List String) :
    readBlocks (g.blockLines ++ rest) = .ok (Graph.ofMatrix g.matrix) :: readBlocks rest := by
  have count := integer?_ofNatural small
  have length : (g.matrix.map rowText).length = rowCount (ofNatural g.order) := by
    simp [rowCount, count]
  let b : Block := ⟨ofNatural g.order, g.matrix.map rowText, Nat.le_of_eq length⟩
  have spells : b.Spells g.order g.matrix := by
    refine ⟨count, by simp [b], forall₂_isRow_rowText g.matrix, ?_⟩
    intro row hr
    rw [g.square_matrix row hr, Graph.length_matrix]
  have read : b.read = .ok (Graph.ofMatrix g.matrix) :=
    Block.read_eq_ok_iff.mpr ⟨_, _, spells, rfl⟩
  have step : readBlocks (b.header :: (b.body ++ rest)) = b.read :: readBlocks rest :=
    readBlocks_block (isBlankLine_ofNatural g.order) fun short => absurd length short.ne
  rwa [read] at step

theorem readBlocks_graphFile {graphs : List Graph}
    (small : ∀ g ∈ graphs, g.order < 10 ^ digitLimit) :
    readBlocks (graphs.flatMap Graph.blockLines) =
      (graphs.map fun g => Graph.ofMatrix g.matrix).map .ok := by
  induction graphs with
  | nil => simp [readBlocks]
  | cons g graphs ih =>
    rw [List.flatMap_cons, readBlocks_blockLines (small g List.mem_cons_self),
      ih fun other ho => small other (List.mem_cons_of_mem _ ho)]
    rfl

/-- The graphs of a written file are those of the matrices. -/
theorem readGraphs_lines {graphs : List Graph} (small : ∀ g ∈ graphs, g.order < 10 ^ digitLimit) :
    readGraphs (Text.lines (graphFile graphs)) =
      (graphs.map fun g => Graph.ofMatrix g.matrix).mapIdx
        fun i g => ⟨(i : Int) + 1, .ok g⟩ := by
  rw [lines_graphFile, readGraphs, readBlocks_graphFile small, Instance.number_ok]

theorem Graph.Numbers.block_eq {h : Graph} (numbers : g.Numbers h) : h.block = g.block := by
  rw [Graph.block, Graph.block, numbers.order_eq, numbers.matrix_eq]

/-- **Written graphs are read back.** Reading the lines of a written file, with or without their
ends, gives a graph for every graph that was written, numbered from one on: its nodes are the numbers
below the count, joined as the nodes at these places were. Written again, the graphs give the same
text. -/
theorem readGraphs_graphFile (graphs : List Graph)
    (small : ∀ g ∈ graphs, g.order < 10 ^ digitLimit) :
    ∃ back : List Graph,
      readGraphs (Text.lines (graphFile graphs)) =
        back.mapIdx (fun i h => ⟨(i : Int) + 1, .ok h⟩) ∧
      readGraphs ((Text.lines (graphFile graphs)).map (· ++ "\n")) =
        back.mapIdx (fun i h => ⟨(i : Int) + 1, .ok h⟩) ∧
      List.Forall₂ Graph.Numbers graphs back ∧
      graphFile back = graphFile graphs := by
  have read := readGraphs_lines small
  refine ⟨graphs.map fun g => Graph.ofMatrix g.matrix, read, ?_, ?_, ?_⟩
  · rwa [readGraphs, readBlocks_map strip_lineEnd]
  · rw [List.forall₂_map_right_iff, List.forall₂_same]
    exact fun g _ => g.numbers_ofMatrix
  · rw [graphFile, graphFile, List.map_map]
    refine congrArg String.join (List.map_congr_left fun g _ => ?_)
    exact congrArg (· ++ "\n") g.numbers_ofMatrix.block_eq

/-- A graph without nodes, and one whose nodes are not numbers from zero on and that has a loop. -/
theorem readGraphs_graphFile_loop : ∃ empty g : Graph,
    empty.nodes = [] ∧ g.nodes = [.text "b", .int 7] ∧
    g.edges = [(.int 7, .int 7), (.text "b", .int 7)] ∧
    graphFile [empty, g] = "0\n2\n0 1\n1 1\n" ∧
    ∃ back : List Graph,
      readGraphs (Text.lines "0\n2\n0 1\n1 1\n") = back.mapIdx (fun i h => ⟨(i : Int) + 1, .ok h⟩) ∧
      List.Forall₂ Graph.Numbers [empty, g] back ∧ graphFile back = "0\n2\n0 1\n1 1\n" := by
  let empty : Graph := .edgeless [] .nil
  let g : Graph := ⟨[.text "b", .int 7], [(.int 7, .int 7), (.text "b", .int 7)], false,
    by decide, by decide, by decide⟩
  have written : graphFile [empty, g] = "0\n2\n0 1\n1 1\n" := by decide
  have ten : 10 ^ 1 ≤ 10 ^ digitLimit := Nat.pow_le_pow_right (by decide) (by decide)
  have small : ∀ h ∈ [empty, g], h.order < 10 ^ digitLimit := by
    intro h hh
    have few : h.order < 10 ^ 1 := by
      revert h
      decide
    exact few.trans_le ten
  obtain ⟨back, read, _, numbers, again⟩ := readGraphs_graphFile [empty, g] small
  rw [written] at read again
  exact ⟨empty, g, rfl, rfl, rfl, written, back, read, numbers, again⟩

end VertexCover
