import VertexCover.Proofs.Instance.GraphBlock

/-!
# Files one after the other

A file that does not end inside a block can be followed by any other lines. The blocks of both parts
are read as they are alone; only the numbers of the later ones move on, in the instances and in what
is said about bad blocks.

* `Layout.append`: the layouts of the parts make up the layout of the whole;
* `readBlocks_append`: the same for what is read;
* `Moved`: an instance and the same instance further on in a file;
* `readGraphs_append`: the numbered graphs of both parts, and blocks with bad rows between them.
-/

namespace VertexCover
open Text

variable {first second lines : List String} {blocks others : List Block}

/-! ## Blocks -/

theorem Block.read_of_short {b : Block} (short : b.body.length < rowCount b.header) :
    b.read = .error (.truncated (rowCount b.header) b.body.length) := by
  cases count : integer? (strip b.header.toList) with
  | none => simp [rowCount, count] at short
  | some n =>
    have asked : rowCount b.header = n.toNat := by simp [rowCount, count]
    have positive : ¬ n < 0 := by omega
    rw [asked] at short ⊢
    simp [Block.read, readBlock, count, positive, short]

theorem Layout.append (h : Layout first blocks) (h' : Layout second others)
    (whole : ∀ b ∈ blocks, ¬ b.body.length < rowCount b.header) :
    Layout (first ++ second) (blocks ++ others) := by
  induction h with
  | done => exact h'
  | blank blank _ ih => exact .blank blank (ih whole)
  | @block b rest blocks filled _ _ ih =>
    have later := ih fun c hc => whole c (List.mem_cons_of_mem _ hc)
    have joined := Layout.block filled
      (fun short => absurd short (whole b List.mem_cons_self)) later
    rwa [← List.append_assoc] at joined

theorem readBlocks_append
    (whole : ∀ n found, .error (.truncated n found) ∉ readBlocks first) :
    readBlocks (first ++ second) = readBlocks first ++ readBlocks second := by
  obtain ⟨blocks, layout⟩ := exists_layout first
  obtain ⟨others, layout'⟩ := exists_layout second
  have complete : ∀ b ∈ blocks, ¬ b.body.length < rowCount b.header := by
    intro b hb short
    apply whole (rowCount b.header) b.body.length
    rw [layout.readBlocks_eq, ← Block.read_of_short short]
    exact List.mem_map_of_mem hb
  rw [(layout.append layout' complete).readBlocks_eq, layout.readBlocks_eq, layout'.readBlocks_eq,
    List.map_append]

/-! ## Instances -/

/-- An instance, and the same instance so many places further on. A bad block quotes its number. -/
inductive Moved (places : Nat) : Instance String Graph → Instance String Graph → Prop where
  | graph (index : Int) (g : Graph) : Moved places ⟨index, .ok g⟩ ⟨index + places, .ok g⟩
  | fault (index : Int) (detail : String) :
      Moved places ⟨index, .error ("Graph " ++ ofInteger index ++ detail)⟩
        ⟨index + places, .error ("Graph " ++ ofInteger (index + places) ++ detail)⟩

namespace BlockFault

/-- What is said about a bad block starts with its number and does not quote it again. -/
theorem exists_detail (fault : BlockFault) :
    ∃ detail, ∀ index, fault.message index = "Graph " ++ ofInteger index ++ detail := by
  cases fault with
  | header text =>
    use s!": invalid vertex count {quoted text}"
    intro index
    simp only [message, toString, String.append_assoc]
  | negativeOrder n =>
    use s!": negative vertex count {ofInteger n}"
    intro index
    simp only [message, toString, String.append_assoc]
  | truncated expected found =>
    use s!": expected {ofNatural expected} rows, file ended after {ofNatural found}"
    intro index
    simp only [message, toString, String.append_assoc]
  | row number cause =>
    use s!", row {ofNatural number}: {cause.message}"
    intro index
    simp only [message, toString, String.append_assoc]

/-- The wording shows that a block was cut short. -/
theorem exists_truncated {fault : BlockFault} {index : Int} {n found : Nat}
    (same : fault.message index = (truncated n found).message index) :
    ∃ expected there, fault = .truncated expected there := by
  have letters := congrArg String.toList same
  cases fault with
  | truncated expected there => exact ⟨expected, there, rfl⟩
  | header text => simp [message, toString] at letters
  | negativeOrder m => simp [message, toString] at letters
  | row number cause => simp [message, toString] at letters

end BlockFault

namespace Instance

variable {ε α : Type}

theorem number_append (items later : List (Except ε α)) :
    number (items ++ later) =
      number items ++ (number later).map fun i => ⟨i.index + items.length, i.content⟩ := by
  apply List.ext_getElem (by simp [number])
  intro i _ _
  by_cases inside : i < items.length
  · simp [number, inside]
  · have place : (i : Int) + 1 = ((i - items.length : Nat) : Int) + 1 + items.length := by omega
    simp [number, List.getElem_append, inside, place]

theorem moved_describe (places : Nat) (i : Instance BlockFault Graph) :
    Moved places (i.describe BlockFault.message)
      (describe BlockFault.message ⟨i.index + places, i.content⟩) := by
  obtain ⟨index, content⟩ := i
  cases content with
  | ok g => exact .graph index g
  | error fault =>
    obtain ⟨detail, said⟩ := fault.exists_detail
    simp only [describe, said]
    exact .fault index detail

end Instance

theorem length_readGraphs (lines : List String) :
    (readGraphs lines).length = (readBlocks lines).length := by
  simp [readGraphs, Instance.number]

section
variable {content : Except BlockFault Graph} {items others later : List (Except BlockFault Graph)}

theorem readGraphs_eq_append
    (read : readBlocks lines = readBlocks first ++ later) :
    readGraphs lines = readGraphs first ++ (readGraphs lines).drop (readBlocks first).length := by
  rw [← length_readGraphs, readGraphs, read, Instance.number_append, List.map_append, ← readGraphs,
    List.drop_left]

theorem readGraphs_eq_cons
    (read : readBlocks lines = readBlocks first ++ content :: later) :
    readGraphs lines = readGraphs first ++
      Instance.describe BlockFault.message ⟨1 + (readBlocks first).length, content⟩ ::
        (readGraphs lines).drop ((readBlocks first).length + 1) := by
  have next : (readGraphs lines)[(readBlocks first).length]? =
      some (Instance.describe BlockFault.message ⟨1 + (readBlocks first).length, content⟩) := by
    simp [readGraphs, read, Instance.number, Int.add_comm]
  obtain ⟨inside, value⟩ := List.getElem?_eq_some_iff.mp next
  have cut := readGraphs_eq_append read
  rwa [List.drop_eq_getElem_cons inside, value] at cut

theorem drop_readGraphs (read : readBlocks lines = items ++ later) :
    (readGraphs lines).drop items.length = (Instance.number later).map
      fun i => Instance.describe BlockFault.message ⟨i.index + items.length, i.content⟩ := by
  rw [readGraphs, read, Instance.number_append, List.map_append, List.map_map,
    List.drop_left' (by simp [Instance.number])]
  rfl

/-- The same blocks after different numbers of others are read alike. -/
theorem readGraphs_moved {lines' : List String} {places : Nat}
    (read : readBlocks lines = items ++ later) (read' : readBlocks lines' = others ++ later)
    (length : others.length = items.length + places) :
    List.Forall₂ (Moved places) ((readGraphs lines).drop items.length)
      ((readGraphs lines').drop others.length) := by
  rw [drop_readGraphs read, drop_readGraphs read', length, List.forall₂_map_left_iff,
    List.forall₂_map_right_iff, List.forall₂_same]
  intro i _
  have moved := Instance.moved_describe places ⟨i.index + items.length, i.content⟩
  rwa [Int.add_assoc, ← Int.natCast_add] at moved

end

/-- The instances show whether the lines end inside a block. -/
theorem whole_iff : (∀ item ∈ readGraphs lines, ∀ n found,
      item.content ≠ .error ((BlockFault.truncated n found).message item.index)) ↔
    ∀ n found, .error (.truncated n found) ∉ readBlocks lines := by
  constructor
  · intro whole n found short
    obtain ⟨i, inside, cut⟩ := List.getElem_of_mem short
    have place : i < (readGraphs lines).length := by rwa [length_readGraphs]
    apply whole _ (List.getElem_mem place) n found
    simp [readGraphs, Instance.number, Instance.describe, cut]
  · intro whole item hi n found said
    obtain ⟨⟨index, content⟩, listed, rfl⟩ := List.mem_map.mp hi
    have read := Instance.content_mem listed
    cases content with
    | ok g => cases said
    | error fault =>
      injection said with said
      obtain ⟨expected, there, rfl⟩ := BlockFault.exists_truncated said
      exact whole expected there read

theorem isBlankLine_of_count {header : String} {n : Int}
    (count : integer? (strip header.toList) = some n) : isBlankLine header = false := by
  rw [Bool.eq_false_iff, Ne, isBlankLine_iff]
  intro blank
  rw [blank] at count
  exact absurd count (by simp [integer?, readInteger, readSign, wellGrouped, Except.toOption])

/-- A block with as many lines as its header asks for is read for itself, whatever is in them. -/
theorem Block.readBlocks_eq {b : Block} {n : Nat}
    (count : integer? (strip b.header.toList) = some (n : Int)) (length : b.body.length = n)
    (rest : List String) :
    readBlocks (b.header :: (b.body ++ rest)) = b.read :: readBlocks rest := by
  have asked : rowCount b.header = b.body.length := by simp [rowCount, count, length]
  exact readBlocks_block (isBlankLine_of_count count) fun short => absurd asked short.ne'

/-- **Blocks are read for themselves.** Unless some block of the first lines is cut short by their
end, other lines can follow: the instances of both are those of the whole, with the later ones moved
on by the number of the earlier ones. A block with a header that can be read takes up the lines it
asks for, whatever is in them, and adds one instance. -/
theorem readGraphs_append (first second : List String)
    (whole : ∀ item ∈ readGraphs first, ∀ n found,
      item.content ≠ .error ((BlockFault.truncated n found).message item.index)) :
    (∃ later, readGraphs (first ++ second) = readGraphs first ++ later ∧
      List.Forall₂ (Moved (readGraphs first).length) (readGraphs second) later) ∧
    ∀ (header : String) (body : List String) (n : Nat),
      integer? (strip header.toList) = some (n : Int) → body.length = n →
      ∃ content item later, readGraphs (header :: body) = [⟨1, content⟩] ∧
        readGraphs (first ++ header :: (body ++ second)) = readGraphs first ++ item :: later ∧
        Moved (readGraphs first).length ⟨1, content⟩ item ∧
        List.Forall₂ (Moved ((readGraphs first).length + 1)) (readGraphs second) later := by
  have after (lines : List String) :
      readBlocks (first ++ lines) = readBlocks first ++ readBlocks lines :=
    readBlocks_append (whole_iff.mp whole)
  -- What is read from lines alone, and at the end of others.
  have moved {lines lines' : List String} {others : List (Except BlockFault Graph)}
      (read : readBlocks lines' = others ++ readBlocks lines) :
      List.Forall₂ (Moved others.length) (readGraphs lines)
        ((readGraphs lines').drop others.length) :=
    readGraphs_moved (List.nil_append _).symm read (Nat.zero_add _).symm
  rw [length_readGraphs]
  refine ⟨⟨_, readGraphs_eq_append (after second), moved (after second)⟩, ?_⟩
  intro header body n count length
  obtain ⟨b, rfl, rfl⟩ : ∃ b : Block, b.header = header ∧ b.body = body :=
    ⟨⟨header, body, by simp [rowCount, count, length]⟩, rfl, rfl⟩
  have taken := b.readBlocks_eq count length
  have single : readBlocks (b.header :: b.body) = [b.read] := by
    have step := taken []
    rwa [List.append_nil, readBlocks] at step
  have alone : readGraphs (b.header :: b.body) =
      [Instance.describe BlockFault.message ⟨1, b.read⟩] := by
    rw [readGraphs, single]
    rfl
  have read : readBlocks (first ++ b.header :: (b.body ++ second)) =
      readBlocks first ++ b.read :: readBlocks second := by
    rw [after, taken]
  have later := moved (read.trans (List.append_cons _ _ _))
  rw [List.length_append, List.length_singleton] at later
  exact ⟨_, _, _, alone, readGraphs_eq_cons read, Instance.moved_describe _ ⟨1, b.read⟩, later⟩

/-- A block with a bad row, before a bad header and a graph without nodes. -/
theorem readGraphs_append_row :
    readGraphs ["2", "0 x", "1 0"] = [⟨1, .error "Graph 1, row 0: Invalid adjacency entry 'x'"⟩] ∧
    ∃ later, readGraphs ["2", "0 x", "1 0", "-1", "0"] =
        ⟨1, .error "Graph 1, row 0: Invalid adjacency entry 'x'"⟩ :: later ∧
      List.Forall₂ (Moved 1) (readGraphs ["-1", "0"]) later := by
  let b : Block := ⟨"2", ["0 x", "1 0"], by decide⟩
  have blocks : readBlocks ["2", "0 x", "1 0"] = [.error (.row 0 (.rowEntry "x"))] := by
    have read : b.read = .error (.row 0 (.rowEntry "x")) := by
      unfold b
      rfl
    have taken := b.readBlocks_eq (n := 2) (by decide) rfl []
    rwa [readBlocks, read] at taken
  have read : readGraphs ["2", "0 x", "1 0"] =
      [⟨1, .error "Graph 1, row 0: Invalid adjacency entry 'x'"⟩] := by
    rw [readGraphs, blocks]
    rfl
  obtain ⟨⟨later, joined, moved⟩, _⟩ := readGraphs_append ["2", "0 x", "1 0"] ["-1", "0"]
    (whole_iff.mpr (by simp [blocks]))
  rw [read] at joined moved
  exact ⟨read, later, joined, moved⟩

end VertexCover
