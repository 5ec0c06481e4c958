import VertexCover.FileTree
import VertexCover.Instance.FormulaLine
import VertexCover.Instance.GraphBlock
import VertexCover.Random.Instances

/-! Suites of random instances, written to two files.

Every instance has a seed of its own, counted up from the seed of the suite. For every formula shape
planted and random formulas take turns. -/
namespace VertexCover.Random

/-- What a suite consists of. -/
structure Suite where
  sizes : List Int
  probabilities : List Double
  graphsPerSetting : Int
  /-- The numbers of variables and clauses; each shape must have exactly these two. -/
  shapes : List (List Int)
  formulasPerShape : Int
  graphPath : String
  formulaPath : String
  seed : Int

namespace Suite

/-- The pairs of a size and a probability, in order. -/
def settings (suite : Suite) : List (Int × Double) :=
  suite.sizes.flatMap fun n => suite.probabilities.map fun p => (n, p)

/-- Graphs of one setting; `made` graphs come before them. -/
def graphsOf (seed n : Int) (p : Double) (made : Nat) : Nat → Except Fault (List Graph)
  | 0 => .ok []
  | count + 1 => do
    let first ← graphOfSeed n p (seed + made)
    return first :: (← graphsOf seed n p (made + 1) count)

/-- The graphs for the settings; `made` graphs come before them. -/
def graphsFrom (suite : Suite) (made : Nat) : List (Int × Double) → Except Fault (List Graph)
  | [] => .ok []
  | (n, p) :: rest => do
    let here ← graphsOf suite.seed n p made suite.graphsPerSetting.toNat
    return here ++ (← suite.graphsFrom (made + here.length) rest)

/-- The graphs of the suite. -/
def graphs (suite : Suite) : Except Fault (List Graph) := suite.graphsFrom 0 suite.settings

/-- The two numbers of a shape. -/
def shape : List Int → Except Fault (Int × Int)
  | [vars, clauses] => .ok (vars, clauses)
  | [] => .error (.shapeTooShort 0)
  | [_] => .error (.shapeTooShort 1)
  | _ => .error .shapeTooLong

/-- Pairs of a planted and a random formula; `made` formulas come before them. -/
def pairsOf (seed vars clauses : Int) (made : Nat) : Nat → Except Fault (List Formula)
  | 0 => .ok []
  | count + 1 => do
    let (first, _) ← plantedOfSeed vars clauses (seed + made)
    let second ← formulaOfSeed vars clauses (seed + 1000 + (made + 1 : Nat))
    return first :: second :: (← pairsOf seed vars clauses (made + 2) count)

/-- The formulas for the shapes; `made` formulas come before them. -/
def formulasFrom (suite : Suite) (made : Nat) : List (List Int) → Except Fault (List Formula)
  | [] => .ok []
  | s :: rest => do
    let (vars, clauses) ← shape s
    let here ← pairsOf suite.seed vars clauses made suite.formulasPerShape.toNat
    return here ++ (← suite.formulasFrom (made + here.length) rest)

/-- The formulas of the suite. -/
def formulas (suite : Suite) : Except Fault (List Formula) := suite.formulasFrom 0 suite.shapes

/-- What is left when a suite has been written, or could not be. -/
structure Outcome where
  tree : FileTree
  log : List Log.Entry
  fault : Option Fault

/-- What is said about a file with so many instances. -/
def saved (count : Nat) (what path : String) : Log.Entry :=
  ⟨.info, .suite, s!"Saved {Text.ofNatural count} {what}(s) to {path}"⟩

/-- Writes the formulas, after the graphs. -/
def writeFormulas (suite : Suite) (tree : FileTree) (log : List Log.Entry) : Outcome :=
  match suite.formulas with
  | .error fault => ⟨tree, log, some fault⟩
  | .ok formulas =>
    match tree.save suite.formulaPath (formulaFile formulas) with
    | (.error fault, tree) => ⟨tree, log, some fault⟩
    | (.ok (), tree) => ⟨tree, log ++ [saved formulas.length "formula" suite.formulaPath], none⟩

/-- Writes the two files of the suite; the graphs are written before a formula is made. -/
def write (suite : Suite) (tree : FileTree) : Outcome :=
  match suite.graphs with
  | .error fault => ⟨tree, [], some fault⟩
  | .ok graphs =>
    match tree.save suite.graphPath (graphFile graphs) with
    | (.error fault, tree) => ⟨tree, [], some fault⟩
    | (.ok (), tree) => suite.writeFormulas tree [saved graphs.length "graph" suite.graphPath]

end Suite

end VertexCover.Random
