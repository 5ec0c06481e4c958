import VertexCover.Batch.Formulas
import VertexCover.Batch.Graphs
import VertexCover.Command.Console
import VertexCover.Instance.FormulaLine
import VertexCover.Instance.GraphBlock

/-! The program that solves the instances of a file.

It has a command for vertex covers, one for cliques and one for formulas. All of the file is read
before the first line is written. -/
namespace VertexCover.Command

/-- The commands. -/
inductive Task where
  | graphs (mode : Mode)
  | formulas
deriving DecidableEq, Repr

/-- The commands by name. -/
def tasks : List (String × Task) :=
  [("vertex-cover", .graphs .cover), ("clique", .graphs .clique), ("cnf", .formulas)]

/-- The file that is read if none is named. -/
def Task.defaultFile : Task → String
  | .graphs .cover => "graph.txt"
  | .graphs .clique => "graphs2022.txt"
  | .formulas => "cnfs2022.txt"

/-- The settings of a command. -/
structure Settings where
  k : Option Int
  csv : Option String
  plotDir : Option String
  check : Bool
  repair : Bool
deriving DecidableEq, Repr

/-- The settings if no switch is given. -/
def Settings.default : Settings := ⟨none, none, none, false, true⟩

/-- Stores a switch of a command. -/
def Settings.assign (s : Settings) (name value : String) : Except String Settings :=
  match name with
  | "--k" => (integerValue value).map fun k => { s with k := some k }
  | "--csv" => .ok { s with csv := some value }
  | "--plot-dir" => .ok { s with plotDir := some value }
  | "--ilp-check" => .ok { s with check := true }
  | "--no-repair" => .ok { s with repair := false }
  | _ => .ok s

/-- The name of the program. -/
def program : String := "main.py"

/-- The switches of a command. -/
def Task.switches : Task → List Switch
  | .formulas => [⟨["--csv"], .value⟩]
  | .graphs mode =>
    [⟨["--k"], .value⟩, ⟨["--csv"], .value⟩, ⟨["--plot-dir"], .value⟩, ⟨["--ilp-check"], .flag⟩] ++
      if mode = .cover then [⟨["--no-repair"], .flag⟩] else []

/-- The arguments of a command. -/
def Task.grammar (task : Task) (name : String) : Grammar Settings where
  program := s!"{program} {name}"
  switches := task.switches
  words := .one
  assign := Settings.assign

/-- The arguments of the program before a command; the setting is whether all is logged. -/
def mainGrammar : Grammar Bool where
  program := program
  switches := [⟨["--verbose"], .flag⟩]
  words := .command
  assign := fun _ _ _ => .ok true

/-- What a run is asked to do. -/
structure Order where
  verbose : Bool
  task : Task
  file : String
  settings : Settings
deriving DecidableEq, Repr

/-- The command with the given name. -/
def findTask (name : String) : Except Refusal Task :=
  match tasks.lookup name with
  | some task => .ok task
  | none =>
    let choices := String.intercalate ", " (tasks.map fun t => Text.quoted t.1)
    let message :=
      s!"argument command: invalid choice: {Text.quoted name} (choose from {choices})"
    .error (.error program message)

/-- Reads the arguments of a command, given what the program did not want of those before it. -/
def readTask (verbose : Bool) (extras : List String) (name : String) (args : List String) :
    Except Refusal Order := do
  let task ← findTask name
  let parsed ← (task.grammar name).parse .default args
  let extras := extras ++ parsed.extras
  if !extras.isEmpty then throw (Grammar.refuse program extras)
  if parsed.settings.k.any (· < 0) then throw (.error program "--k must be non-negative")
  let file := (parsed.words.bind List.head?).getD task.defaultFile
  return ⟨verbose, task, file, parsed.settings⟩

/-- Reads the arguments of the program. -/
def readOrder (args : List String) : Except Refusal Order := do
  let parsed ← mainGrammar.parse false args
  match parsed.words with
  | some (name :: rest) => readTask parsed.settings parsed.extras name rest
  | _ => throw (.error program "the following arguments are required: command")

/-- The first lines of a report on graphs. -/
def graphHeading (mode : Mode) (k : Option Int) (file : String) : List String :=
  let what :=
    match mode, k with
    | .cover, none => "A Minimum Vertex Cover"
    | .cover, some k => s!"A Vertex Cover of size <= {Text.ofInteger k}"
    | .clique, none => "Max Cliques"
    | .clique, some k => s!"Cliques of size >= {Text.ofInteger k}"
  [s!"* {what} of every graph in {file} *", "   (|V|,|E|)   (size, ms used) Vertices"]

/-- The word for what is highlighted in a figure. -/
def highlightName : Mode → String
  | .cover => "cover"
  | .clique => "clique"

/-- Saves the figure of a graph into a directory, which is made if need be. -/
def saveFigure (tree : FileTree) (directory : String) (mode : Mode) (index : Int) (g : Graph)
    (members : List Label) : Except Fault Unit × FileTree :=
  let directory := Path.ofText directory
  match tree.makeDirectory directory with
  | (.ok (), made) =>
    let name := s!"G{Text.ofInteger index}"
    let path := directory.child s!"{name}_{highlightName mode}.png"
    match made.write path.text (.figure (g.figure members name (highlightName mode))) with
    | .error fault => (.error fault, made)
    | .ok written => (.ok (), written)
  | failed => failed

/-- A step of a run: the console after it, and why the run cannot go on, if so. -/
abbrev Step := Console × Option Fault

/-- Writes the line, and the figure if wanted, of one instance. -/
def reportGraph (mode : Mode) (plotDir : Option String) (console : Console)
    (i : Instance String Graph) (result : Instance String GraphSolution) : Step :=
  match solutionLine result with
  | .error fault => (console, some fault)
  | .ok line =>
    let console := console.print [line]
    match plotDir, i.content, result.content with
    | some directory, .ok g, .ok solution =>
      match saveFigure console.tree directory mode i.index g solution.members with
      | (.error fault, tree) => ({ console with tree }, some fault)
      | (.ok (), tree) => ({ console with tree }, none)
    | _, _, _ => (console, none)

/-- Writes the lines and figures of all instances, up to the first failure. -/
def reportGraphs (mode : Mode) (plotDir : Option String) (console : Console) :
    List (Instance String Graph × Instance String GraphSolution) → Step
  | [] => (console, none)
  | (i, result) :: rest =>
    match reportGraph mode plotDir console i result with
    | (console, none) => reportGraphs mode plotDir console rest
    | (console, some fault) => (console, some fault)

/-- Writes a table, unless no file is named for it. The directory of the file must be there. -/
def saveTable (csv : Option String) (table : Table) (console : Console) : Step :=
  let path := csv.getD ""
  let parent := (Path.ofText path).parent.text
  if path.isEmpty then (console, none)
  else
    match console.tree.isDirectory parent with
    | .error fault => (console, some fault)
    | .ok false => (console, some (.file (.noParent parent)))
    | .ok true =>
      match console.tree.writeText path table.csv with
      | .error fault => (console, some fault)
      | .ok tree =>
        let entry : Log.Entry := ⟨.info, .command, s!"Results saved to {path}"⟩
        ({ console with tree }.note [entry], none)

/-- What is said when a file has been read. -/
def loaded (count : Nat) (what file : String) : Log.Entry :=
  ⟨.info, .instances, s!"Loaded {Text.ofNatural count} {what}(s) from {file}"⟩

/-- The graph commands. -/
def runGraphs (seconds : Double) (mode : Mode) (order : Order) (tree : FileTree) : Step :=
  let console := Console.start tree
  match tree.readLines order.file with
  | .error fault => (console, some fault)
  | .ok lines =>
    let instances := readGraphs lines
    let console := console.note
      (Instance.warnings instances ++ [loaded instances.length "graph instance" order.file])
    let s := order.settings
    let task : GraphTask :=
      { mode, k := s.k, repair := s.repair, check := s.check, seconds }
    let batch := task.solveAll Model.minimise instances
    let console := console.note batch.log
    match batch.result with
    | .error fault => (console, some fault)
    | .ok results =>
      let console := console.print (graphHeading mode s.k order.file)
      match reportGraphs mode s.plotDir console (instances.zip results) with
      | (console, some fault) => (console, some fault)
      | (console, none) => saveTable s.csv (graphTable results) console

/-- The lines on one formula; a report is followed by an empty line. -/
def formulaReport (i : Instance String FormulaSolution) : Except Fault (List String) :=
  match i.content with
  | .error message => .ok [s!"3CNF No. {Text.ofInteger i.index} skipped: {message}"]
  | .ok s => (s.report i.index).map (· ++ [""])

/-- The command for formulas. -/
def runFormulas (seconds : Double) (order : Order) (tree : FileTree) : Step :=
  let console := Console.start tree
  match tree.readLines order.file with
  | .error fault => (console, some fault)
  | .ok lines =>
    let instances := readFormulas lines
    let results := solveFormulas seconds instances
    let console := console.note
      (Instance.warnings instances ++ [loaded instances.length "formula" order.file] ++
        formulasLog seconds results)
    let console := console.print
      [s!"* Solve every 3CNF in {order.file} (reduced to K-Vertex Cover) *"]
    match results.mapM formulaReport with
    | .error fault => (console, some fault)
    | .ok reports =>
      saveTable order.settings.csv (formulaTable results) (console.print reports.flatten)

/-- The outcome of a run; trouble with files is told in a line of its own. -/
def close (order : Order) (step : Step) : Run :=
  let (console, fault) := step
  let level := if order.verbose then Log.Level.debug else Log.Level.warning
  let log := logLines level console.log
  let (ending, last) : Ending × List String :=
    match fault with
    | none => (.exit 0, [])
    | some (.file cause) =>
      (.exit 1, [s!"Error opening file: {order.file} ({cause.message})"])
    | some fault => (.failed fault, [])
  { ending
    out := linesText console.out
    err := linesText (log ++ last)
    tree := console.tree }

/-- Runs the program; every timed step takes as long as the clock says. -/
def solve (seconds : Double) (args : List String) (tree : FileTree) : Run :=
  match readOrder args with
  | .error refusal => .refused refusal tree
  | .ok order =>
    match order.task with
    | .graphs mode => close order (runGraphs seconds mode order tree)
    | .formulas => close order (runFormulas seconds order tree)

end VertexCover.Command
