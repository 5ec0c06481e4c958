import VertexCover.Command.Console
import VertexCover.Random.Suite
import VertexCover.Text.Lists

/-! The program that writes suites of random instances. -/
namespace VertexCover.Command

/-- The suite that is written if no switch is given. -/
def defaultSuite : Random.Suite where
  sizes := [4, 6, 8, 10]
  probabilities := [.ofDecimal false 3 (-1), .ofDecimal false 6 (-1)]
  graphsPerSetting := 2
  shapes := [[3, 2], [3, 4], [4, 4]]
  formulasPerShape := 2
  graphPath := "graphs.txt"
  formulaPath := "cnfs.txt"
  seed := 0

/-- The wording of a bad list. -/
def listResult {α : Type} (result : Except Fault α) : Except String α :=
  match result with
  | .ok a => .ok a
  | .error fault => .error (fault.message.getD "")

/-- Stores a switch. -/
def assignSuite (s : Random.Suite) (name value : String) : Except String Random.Suite :=
  match name with
  | "--sizes" => (listResult (Text.readIntegers value)).map fun v => { s with sizes := v }
  | "--probabilities" =>
    (listResult (Text.readDoubles value)).map fun v => { s with probabilities := v }
  | "--graphs-per-setting" => (integerValue value).map fun v => { s with graphsPerSetting := v }
  | "--cnf-shapes" => (listResult (Text.readShapes value)).map fun v => { s with shapes := v }
  | "--formulas-per-shape" => (integerValue value).map fun v => { s with formulasPerShape := v }
  | "--graph-out" => .ok { s with graphPath := value }
  | "--cnf-out" => .ok { s with formulaPath := value }
  | "--seed" => (integerValue value).map fun v => { s with seed := v }
  | _ => .ok s

/-- The arguments of the program. -/
def suiteGrammar : Grammar Random.Suite where
  program := "generate_test_graphs.py"
  switches :=
    ["--sizes", "--probabilities", "--graphs-per-setting", "--cnf-shapes", "--formulas-per-shape",
      "--graph-out", "--cnf-out", "--seed"].map fun name => ⟨[name], .value⟩
  words := .none
  assign := assignSuite

/-- Reads the arguments of the program. -/
def readSuite (args : List String) : Except Refusal Random.Suite := do
  let parsed ← suiteGrammar.parse defaultSuite args
  if !parsed.extras.isEmpty then throw (Grammar.refuse suiteGrammar.program parsed.extras)
  return parsed.settings

/-- Runs the program. -/
def generate (args : List String) (tree : FileTree) : Run :=
  match readSuite args with
  | .error refusal => .refused refusal tree
  | .ok suite =>
    let outcome := suite.write tree
    { ending :=
        match outcome.fault with
        | none => .exit 0
        | some fault => .failed fault
      out := ""
      err := linesText (logLines .info outcome.log)
      tree := outcome.tree }

end VertexCover.Command
