import VertexCover.Instance.GraphBlock
import VertexCover.Proofs.Graph.Matrix
import VertexCover.Proofs.Instance.Row

/-!
# Which lines are read as graphs

A file is laid out in blocks, each a header and the rows that it asks for, with blank lines between
them. Only the last block can have too few rows.

* `Layout`: how the lines of a file fall into blocks; every file has exactly one layout
  (`exists_layout`, `Layout.unique`);
* `Layout.readBlocks_eq`: the reader goes block by block, whatever is in them;
* `Block.Spells`: the grammar of a block; `Block.read_eq_ok_iff`: it is read exactly if it keeps to
  the grammar;
* `readGraphs_exact`: the two together, for the numbered graphs of a file;
* `readBlocks_map`: blanks at the ends of lines change nothing.
-/

namespace VertexCover
open Text

variable {lines rest : List String} {n : Nat} {rows : List (List Bool)}

/-- The number of lines that a header asks for; none if it is no number or a negative one. -/
def rowCount (header : String) : Nat := ((integer? (strip header.toList)).map Int.toNat).getD 0

/-- A header and the lines after it that belong to it. -/
@[ext]
structure Block where
  header : String
  body : List String
  fits : body.length ≤ rowCount header

namespace Block

variable {b : Block} {g : Graph}

/-- The graph of a block, or what is wrong with it. -/
def read (b : Block) : Except BlockFault Graph :=
  match integer? (strip b.header.toList) with
  | none => .error (.header (String.ofList (strip b.header.toList)))
  | some n => if n < 0 then .error (.negativeOrder n) else readBlock n.toNat b.body

/-- The header is a number, as many lines follow, and they spell rows of that many entries. -/
structure Spells (b : Block) (n : Nat) (rows : List (List Bool)) : Prop where
  count : integer? (strip b.header.toList) = some (n : Int)
  enough : b.body.length = n
  lines : List.Forall₂ IsRow b.body rows
  width : ∀ row ∈ rows, row.length = n

theorem Spells.length_rows (h : b.Spells n rows) : rows.length = n := by
  rw [← h.lines.length_eq, h.enough]

theorem Spells.square (h : b.Spells n rows) : Graph.Square rows := by
  intro row hr
  rw [h.width row hr, h.length_rows]

end Block

theorem readRows_eq_ok_iff {start : Nat} : readRows n start lines = .ok rows ↔
    List.Forall₂ IsRow lines rows ∧ ∀ row ∈ rows, row.length = n := by
  induction lines generalizing start rows with
  | nil => cases rows <;> simp [readRows]
  | cons line lines ih =>
    cases rows with
    | nil =>
      simp only [readRows]
      split
      · simp
      · split <;> simp
    | cons row rows =>
      have here : readRow line n = .ok row ↔ IsRow line row ∧ row.length = n := by
        rw [readRow_eq_ok_iff, Int.ofNat_inj, and_comm]
      have both : readRows n start (line :: lines) = .ok (row :: rows) ↔
          readRow line n = .ok row ∧ readRows n (start + 1) lines = .ok rows := by
        simp only [readRows]
        split
        · rename_i failed
          simp [failed]
        · rename_i read
          split
          · rename_i failed
            simp [failed]
          · rename_i later
            simp [read, later]
      rw [both, here, ih, List.forall₂_cons, List.forall_mem_cons, and_and_and_comm]

/-- A block is read as a graph exactly if it keeps to the grammar. -/
theorem Block.read_eq_ok_iff {b : Block} {g : Graph} :
    b.read = .ok g ↔ ∃ n rows, b.Spells n rows ∧ g = Graph.ofMatrix rows := by
  have fits := b.fits
  unfold Block.read rowCount at *
  constructor
  · intro read
    split at read
    · cases read
    · rename_i n count
      split at read
      · cases read
      · rename_i positive
        rw [count] at fits
        simp only [Option.map_some, Option.getD_some, readBlock] at fits read
        split at read
        · cases read
        · rename_i enough
          split at read
          · cases read
          · rename_i rows matrix
            cases read
            obtain ⟨spelled, width⟩ := readRows_eq_ok_iff.mp matrix
            have natural : some n = some (n.toNat : Int) := congrArg some (by omega)
            exact ⟨n.toNat, rows, ⟨count.trans natural, by omega, spelled, width⟩, rfl⟩
  · rintro ⟨n, rows, ⟨count, enough, spelled, width⟩, rfl⟩
    have matrix : readRows n 0 b.body = .ok rows := readRows_eq_ok_iff.mpr ⟨spelled, width⟩
    rw [count]
    simp [readBlock, enough, matrix]

/-! ## The layout of a file -/

/-- How the lines of a file fall into blocks: blank lines stand before headers only, and a block is
not shorter than its header asks for unless the file ends. -/
inductive Layout : List String → List Block → Prop where
  | done : Layout [] []
  | blank {line : String} {rest : List String} {blocks : List Block} :
      isBlankLine line = true → Layout rest blocks → Layout (line :: rest) blocks
  | block {b : Block} {rest : List String} {blocks : List Block} :
      isBlankLine b.header = false → (b.body.length < rowCount b.header → rest = []) →
      Layout rest blocks → Layout (b.header :: (b.body ++ rest)) (b :: blocks)

/-- The header alone decides where a block ends. -/
theorem Block.cut {b : Block} (short : b.body.length < rowCount b.header → rest = []) :
    (b.body ++ rest).take (rowCount b.header) = b.body ∧
      (b.body ++ rest).drop (rowCount b.header) = rest := by
  by_cases complete : b.body.length < rowCount b.header
  · rw [short complete, List.append_nil]
    exact ⟨List.take_of_length_le b.fits, List.drop_of_length_le b.fits⟩
  · have length : b.body.length = rowCount b.header := by
      have := b.fits
      omega
    exact ⟨List.take_left' length, List.drop_left' length⟩

theorem exists_layout (lines : List String) : ∃ blocks, Layout lines blocks := by
  induction length : lines.length using Nat.strongRecOn generalizing lines with
  | ind n ih =>
    cases lines with
    | nil => exact ⟨[], .done⟩
    | cons header rest =>
      rw [List.length_cons] at length
      by_cases blank : isBlankLine header = true
      · obtain ⟨blocks, layout⟩ := ih rest.length (by omega) rest rfl
        exact ⟨blocks, .blank blank layout⟩
      · obtain ⟨b, rfl, body⟩ : ∃ b : Block, b.header = header ∧
            b.body = rest.take (rowCount header) :=
          ⟨⟨header, rest.take (rowCount header), List.length_take_le _ _⟩, rfl, rfl⟩
        obtain ⟨blocks, layout⟩ := ih (rest.drop (rowCount b.header)).length
          (by rw [List.length_drop]; omega) _ rfl
        have whole := Layout.block (Bool.eq_false_iff.mpr blank) (fun short => ?_) layout
        · rw [body, List.take_append_drop] at whole
          exact ⟨b :: blocks, whole⟩
        · rw [body, List.length_take] at short
          exact List.drop_of_length_le (by omega)

theorem Layout.unique {blocks others : List Block} (h : Layout lines blocks)
    (h' : Layout lines others) : others = blocks := by
  induction h generalizing others with
  | done => cases h'; rfl
  | blank blank _ ih =>
    cases h' with
    | blank _ later => exact ih later
    | block filled _ _ => simp [blank] at filled
  | @block b rest blocks filled short _ ih =>
    generalize whole : b.header :: (b.body ++ rest) = lines at h'
    cases h' with
    | done => cases whole
    | blank blank _ =>
      cases whole
      simp [blank] at filled
    | @block b' rest' others _ short' later =>
      injection whole with header tail
      obtain ⟨body, after⟩ := b.cut short
      obtain ⟨body', after'⟩ := b'.cut short'
      rw [header, tail] at body after
      have same : b' = b := Block.ext header.symm (body'.symm.trans body)
      have goes_on : rest' = rest := after'.symm.trans after
      subst goes_on
      rw [same, ih later]

/-- The reader takes a block and goes on after it. -/
theorem readBlocks_block {b : Block} (filled : isBlankLine b.header = false)
    (short : b.body.length < rowCount b.header → rest = []) :
    readBlocks (b.header :: (b.body ++ rest)) = b.read :: readBlocks rest := by
  obtain ⟨body, after⟩ := b.cut short
  -- A header that is no number, or a negative one, takes up no line.
  have bare (none : rowCount b.header = 0) : b.body ++ rest = rest := by
    rw [none, List.drop_zero] at after
    exact after
  rw [readBlocks, if_neg (by simp [filled]), Block.read]
  cases count : integer? (strip b.header.toList) with
  | none => simp only [count, bare (by simp [rowCount, count])]
  | some n =>
    have asked : rowCount b.header = n.toNat := by simp [rowCount, count]
    by_cases negative : n < 0
    · simp only [count, negative, ↓reduceIte, bare (by omega)]
    · rw [asked] at body after
      simp only [count, negative, ↓reduceIte, body, after]

/-- **The reader goes block by block.** -/
theorem Layout.readBlocks_eq {blocks : List Block} (h : Layout lines blocks) :
    readBlocks lines = blocks.map Block.read := by
  induction h with
  | done => rw [readBlocks, List.map_nil]
  | blank blank _ ih => rw [readBlocks, if_pos blank, ih]
  | block filled short _ ih => rw [readBlocks_block filled short, ih, List.map_cons]

theorem readGraphs_eq_ok_iff {b : Block} {item : Instance BlockFault Graph} {g : Graph}
    (h : item.content = b.read) : (item.describe BlockFault.message).content = .ok g ↔
      ∃ n rows, b.Spells n rows ∧ g = Graph.ofMatrix rows := by
  rw [Instance.content_describe, h, Block.read_eq_ok_iff]

/-- A bad block keeps its number when its fault is put into words. -/
theorem index_readGraphs (lines : List String) : (readGraphs lines).map Instance.index =
    (Instance.number (readBlocks lines)).map Instance.index := by
  rw [readGraphs, List.map_map]
  rfl

/-- **A file is read by its format and no reading fails.** The lines fall into blocks in exactly one
way, and there is one instance for every block, numbered from one on. It holds a graph exactly if the
header is a number, as many lines follow, and each spells a row of that many entries. The graph is
then frozen, its nodes are the numbers below the count, and it joins two of them if one of the two
entries for them is set; making it of the rows is never refused. -/
theorem readGraphs_exact (lines : List String) :
    (∃! blocks, Layout lines blocks) ∧ ∀ blocks, Layout lines blocks →
      (readGraphs lines).map Instance.index =
        (List.range blocks.length).map (fun i : Nat => (i : Int) + 1) ∧
      List.Forall₂ (fun b item =>
        ((∃ g, item.content = .ok g) ↔ ∃ n rows, b.Spells n rows) ∧
        ∀ n rows g, b.Spells n rows → item.content = .ok g →
          g.frozen = true ∧ g.nodes = Label.upTo n ∧
          (∀ i j, g.Adj (.ofNat i) (.ofNat j) ↔
            Graph.entryAt rows i j = true ∨ Graph.entryAt rows j i = true) ∧
          Graph.ofNested (.ofRows rows) = .ok g) blocks (readGraphs lines) := by
  obtain ⟨blocks, layout⟩ := exists_layout lines
  refine ⟨⟨blocks, layout, fun others => layout.unique⟩, fun others h => ?_⟩
  obtain rfl : others = blocks := layout.unique h
  constructor
  · rw [index_readGraphs, Instance.index_number, layout.readBlocks_eq, List.length_map]
  · rw [readGraphs, layout.readBlocks_eq, List.forall₂_map_right_iff]
    refine (List.forall₂_map_left_iff.mp (Instance.forall₂_number _)).imp fun b item content => ?_
    have ok (g : Graph) := readGraphs_eq_ok_iff (g := g) content
    refine ⟨⟨?_, ?_⟩, ?_⟩
    · rintro ⟨g, read⟩
      obtain ⟨n, rows, spells, _⟩ := (ok g).mp read
      exact ⟨n, rows, spells⟩
    · rintro ⟨n, rows, spells⟩
      exact ⟨_, (ok _).mpr ⟨n, rows, spells, rfl⟩⟩
    · intro n rows g spells read
      have same : Except.ok g = Except.ok (Graph.ofMatrix rows) :=
        read.symm.trans ((ok _).mpr ⟨n, rows, spells, rfl⟩)
      cases same
      refine ⟨Graph.frozen_ofMatrix rows, ?_, fun i j => Graph.adj_ofMatrix spells.square,
        Graph.ofNested_ofRows spells.square⟩
      rw [Graph.nodes_ofMatrix, spells.length_rows]

/-! ## Blanks at the ends of lines -/

section
variable {f : String → String} (same : ∀ line, strip (f line).toList = strip line.toList)
include same

theorem readRows_map (n start : Nat) (lines : List String) :
    readRows n start (lines.map f) = readRows n start lines := by
  induction lines generalizing start with
  | nil => rfl
  | cons line lines ih =>
    have here : readRow (f line) n = readRow line n := by rw [readRow, readRow, same]
    rw [List.map_cons, readRows, readRows, here, ih]

theorem rowCount_map (header : String) : rowCount (f header) = rowCount header := by
  rw [rowCount, rowCount, same]

/-- The reader does not see blanks at the ends of lines, line ends included. -/
theorem readBlocks_map (lines : List String) : readBlocks (lines.map f) = readBlocks lines := by
  obtain ⟨blocks, layout⟩ := exists_layout lines
  induction layout with
  | done => rfl
  | @blank line _ _ blank _ ih =>
    have blank' : isBlankLine (f line) = true := (isBlankLine_congr (same line)).trans blank
    rw [List.map_cons, readBlocks, if_pos blank', readBlocks, if_pos blank, ih]
  | @block b rest _ filled short _ ih =>
    have fits : (b.body.map f).length ≤ rowCount (f b.header) := by
      rw [List.length_map, rowCount_map same]
      exact b.fits
    let b' : Block := ⟨f b.header, b.body.map f, fits⟩
    have filled' : isBlankLine b'.header = false := (isBlankLine_congr (same b.header)).trans filled
    have short' : b'.body.length < rowCount b'.header → rest.map f = [] := by
      intro less
      rw [List.length_map, rowCount_map same] at less
      rw [short less, List.map_nil]
    have read : b'.read = b.read := by
      simp only [Block.read, readBlock, b', same, readRows_map same, List.length_map]
    rw [List.map_cons, List.map_append, readBlocks_block filled short, ← ih, ← read]
    exact readBlocks_block filled' short'

end

end VertexCover
