import VertexCover.Graph.Matrix
import VertexCover.Instance.Basic
import VertexCover.Instance.Row

/-! Graphs as blocks of lines.

A block is a line with the number of nodes and then a row of the adjacency matrix for every node.
Blank lines between blocks are skipped. A block that cannot be read still takes up the lines its
header asks for, so that the next block starts where it should. -/
namespace VertexCover

/-- Why a block is not read as a graph. -/
inductive BlockFault where
  | header (text : String)
  | negativeOrder (n : Int)
  | truncated (expected found : Nat)
  | row (number : Nat) (cause : Malformed)
deriving DecidableEq, Repr

/-- The wording of a block fault in the block with the given number. -/
def BlockFault.message (index : Int) (fault : BlockFault) : String :=
  let i := Text.ofInteger index
  match fault with
  | .header text => s!"Graph {i}: invalid vertex count {Text.quoted text}"
  | .negativeOrder n => s!"Graph {i}: negative vertex count {Text.ofInteger n}"
  | .truncated expected found =>
    let found := Text.ofNatural found
    s!"Graph {i}: expected {Text.ofNatural expected} rows, file ended after {found}"
  | .row number cause => s!"Graph {i}, row {Text.ofNatural number}: {cause.message}"

/-- Reads rows of `n` entries, numbered from `start`; the first bad one counts. -/
def readRows (n start : Nat) : List String → Except BlockFault (List (List Bool))
  | [] => .ok []
  | line :: rest =>
    match readRow line n with
    | .error cause => .error (.row start cause)
    | .ok row =>
      match readRows n (start + 1) rest with
      | .error fault => .error fault
      | .ok rows => .ok (row :: rows)

/-- Reads a block of `n` rows; missing rows count before bad ones. -/
def readBlock (n : Nat) (rows : List String) : Except BlockFault Graph :=
  if rows.length < n then .error (.truncated n rows.length)
  else
    match readRows n 0 rows with
    | .error fault => .error fault
    | .ok rows => .ok (Graph.ofMatrix rows)

/-- Reads all blocks of a file. -/
def readBlocks (lines : List String) : List (Except BlockFault Graph) :=
  match lines with
  | [] => []
  | header :: rest =>
    if Text.isBlankLine header then readBlocks rest
    else
      let text := Text.strip header.toList
      match Text.integer? text with
      | none => .error (.header (String.ofList text)) :: readBlocks rest
      | some n =>
        if n < 0 then .error (.negativeOrder n) :: readBlocks rest
        else readBlock n.toNat (rest.take n.toNat) :: readBlocks (rest.drop n.toNat)
termination_by lines.length
decreasing_by all_goals (simp only [List.length_cons, List.length_drop]; omega)

/-- The numbered graphs of a file. -/
def readGraphs (lines : List String) : List (Instance String Graph) :=
  (Instance.number (readBlocks lines)).map (Instance.describe BlockFault.message)

/-- The block of a graph, without an end to its last line. -/
def Graph.block (g : Graph) : String :=
  String.intercalate "\n" (Text.ofNatural g.order :: g.matrix.map rowText)

/-- The file with the blocks of the graphs. -/
def graphFile (graphs : List Graph) : String :=
  String.join (graphs.map fun g => g.block ++ "\n")

end VertexCover
