import VertexCover.Command.Solve
import VertexCover.Proofs.Batch.Report
import VertexCover.Proofs.FileTree

/-!
# The printed report on a file of graphs

The rows of a batch are joined with the instances again when they are printed. Every row stands at
the place of its instance and was made of it alone, so the report is the heading and then the line on
every instance.

* `readOrder_reportArgs`: arguments that ask for a report are accepted;
* `reportGraphs_lines`: the loop over instances and rows, one step and then all of them;
* `mapM_lookup?_readGraphs`: looking the instances up by the numbers of the rows gives the same pairs;
* `runGraphs_report`, `solve_report`: the whole run.
-/

namespace VertexCover.Command
open Text

variable {mode : Mode} {k : Option Int} {file : String} {tree : FileTree} {order : Order}
  {lines : List String}

/-! ## Arguments -/

namespace Grammar

variable {σ : Type} {g : Grammar σ} {raw : String} {rest : List String} {token : Token}
  {others : List Token}

theorem tokens_divider (g : Grammar σ) (words : List String) :
    g.tokens ("--" :: words) = .ok (.divider :: words.map .word) := by
  rw [tokens, if_pos rfl]

theorem tokens_cons (argument : raw ≠ "--") (here : g.classify raw = .ok token)
    (later : g.tokens rest = .ok others) : g.tokens (raw :: rest) = .ok (token :: others) := by
  simp only [tokens, if_neg argument, here, later]

/-- What does not start with a dash is a word. -/
theorem tokens_word (plain : raw.toList.head? ≠ some '-') (later : g.tokens rest = .ok others) :
    g.tokens (raw :: rest) = .ok (.word raw :: others) := by
  apply tokens_cons
  · rintro rfl
    exact plain (by decide)
  · unfold classify
    simp [plain]
  · exact later

/-- A switch with a value uses the word after it. -/
theorem read_value {p q : Parsed σ} {s : Switch} {name text : String} (takes : s.arity = .value)
    (stored : g.store p s name text = .ok q) (rounds : Nat) (rest : List Token) :
    g.read (rounds + 1) p (.switch raw s name none :: .word text :: rest) =
      g.read rounds q rest := by
  simp only [read, List.any_cons, Token.isSwitch, Bool.true_or, Bool.not_true, Bool.false_eq_true,
    ↓reduceIte, consumeSwitch, takes, stored, Except.map, List.drop_succ_cons, List.drop_zero]

end Grammar

/-- The command of a mode. -/
def commandName : Mode → String
  | .cover => "vertex-cover"
  | .clique => "clique"

/-- The arguments of a command for a report on a file, whatever the name of the file is. -/
def reportWords (k : Option Int) (file : String) : List String :=
  match k with
  | none => ["--", file]
  | some b => ["--k", ofInteger b, "--", file]

/-- The arguments of the program for a report on a file. -/
def reportArgs (mode : Mode) (k : Option Int) (file : String) : List String :=
  commandName mode :: reportWords k file

theorem head?_ofInteger {b : Int} (natural : 0 ≤ b) : (ofInteger b).toList.head? ≠ some '-' := by
  intro minus
  rw [ofInteger, String.toList_ofList, writeInteger, if_neg (Int.not_lt.mpr natural)] at minus
  exact absurd (isDigit_toDigits (List.mem_of_mem_head? minus)) (by decide)

/-- The program hands everything after the command to it. -/
theorem parse_reportArgs (mode : Mode) (file : String) (bound : ∀ b ∈ k, 0 ≤ b) :
    mainGrammar.parse false (reportArgs mode k file) =
      .ok ⟨false, some (reportArgs mode k file), []⟩ := by
  have name : (commandName mode).toList.head? ≠ some '-' := by cases mode <;> decide
  cases k with
  | none =>
    have tokens := Grammar.tokens_word name (mainGrammar.tokens_divider [file])
    unfold reportArgs reportWords Grammar.parse
    rw [tokens]
    rfl
  | some b =>
    have switch : mainGrammar.classify "--k" = .ok (.unknown "--k") := by decide
    have number := head?_ofInteger (bound b rfl)
    have tokens := Grammar.tokens_word name (Grammar.tokens_cons (by decide) switch
      (Grammar.tokens_word number (mainGrammar.tokens_divider [file])))
    unfold reportArgs reportWords Grammar.parse
    rw [tokens]
    rfl

theorem assign_ofInteger {b : Int} (small : b.natAbs < 10 ^ digitLimit) (s : Settings) :
    s.assign "--k" (ofInteger b) = .ok { s with k := some b } := by
  have value : integerValue (ofInteger b) = .ok b := by
    rw [integerValue, ofInteger, String.toList_ofList, integer?_writeInteger, if_pos small]
  simp only [Settings.assign, value, Except.map]

theorem parse_reportWords (mode : Mode) (file : String) (bound : ∀ b ∈ k, 0 ≤ b)
    (small : ∀ b ∈ k, b.natAbs < 10 ^ digitLimit) :
    ((Task.graphs mode).grammar (commandName mode)).parse .default (reportWords k file) =
      .ok ⟨{ Settings.default with k }, some [file], []⟩ := by
  unfold reportWords Grammar.parse
  cases k with
  | none =>
    rw [Grammar.tokens_divider]
    rfl
  | some b =>
    let g := (Task.graphs mode).grammar (commandName mode)
    let switch : Switch := ⟨["--k"], .value⟩
    have known : g.classify "--k" = .ok (.switch "--k" switch "--k" none) := by
      cases mode <;> decide
    have number := head?_ofInteger (bound b rfl)
    have tokens := Grammar.tokens_cons (by decide) known
      (Grammar.tokens_word number (g.tokens_divider [file]))
    have stored : g.store ⟨.default, none, []⟩ switch "--k" (ofInteger b) =
        .ok ⟨{ Settings.default with k := some b }, none, []⟩ := by
      have same : g.assign = Settings.assign := rfl
      rw [Grammar.store, same, assign_ofInteger (small b rfl)]
    rw [tokens]
    exact Grammar.read_value rfl stored _ _

theorem findTask_commandName (mode : Mode) : findTask (commandName mode) = .ok (.graphs mode) := by
  cases mode <;> decide

/-- **The arguments for a report are accepted**, as long as the bound can be read. -/
theorem readOrder_reportArgs (mode : Mode) (file : String) (bound : ∀ b ∈ k, 0 ≤ b)
    (small : ∀ b ∈ k, b.natAbs < 10 ^ digitLimit) : readOrder (reportArgs mode k file) =
      .ok ⟨false, .graphs mode, file, { Settings.default with k }⟩ := by
  have natural : k.any (· < 0) = false := by
    rw [Option.any_eq_false]
    intro b hb
    simpa using bound b hb
  unfold readOrder
  rw [parse_reportArgs mode file bound]
  simp only [reportArgs, readTask, findTask_commandName, parse_reportWords mode file bound small,
    bind, Except.bind, natural]
  rfl

/-! ## The run -/

/-- The order is for the printed report and nothing else; an empty name stands for no table. -/
structure Order.Reports (order : Order) (mode : Mode) (k : Option Int) (file : String) : Prop where
  task : order.task = .graphs mode
  file : order.file = file
  bound : order.settings.k = k
  table : order.settings.csv.getD "" = ""
  figures : order.settings.plotDir = none

theorem Console.print_append (console : Console) (first second : List String) :
    (console.print first).print second = console.print (first ++ second) := by
  simp only [print, List.append_assoc]

theorem reportGraph_line {i : Instance String Graph} {result : Instance String GraphSolution}
    {line : String} (h : solutionLine result = .ok line) (mode : Mode) (console : Console) :
    reportGraph mode none console i result = (console.print [line], none) := by
  simp only [reportGraph, h]

theorem reportGraphs_lines {line : Instance String Graph → String}
    {instances : List (Instance String Graph)} {results : List (Instance String GraphSolution)}
    (h : List.Forall₂ (fun i result => solutionLine result = .ok (line i)) instances results)
    (mode : Mode) (console : Console) : reportGraphs mode none console (instances.zip results) =
      (console.print (instances.map line), none) := by
  induction h generalizing console with
  | nil => simp only [List.zip_nil_left, reportGraphs, List.map_nil, Console.print, List.append_nil]
  | cons here _ ih =>
    rw [List.zip_cons_cons, reportGraphs, reportGraph_line here]
    simp only [ih, Console.print_append, List.map_cons, List.singleton_append]

/-- **Every result is reported with its own instance.** The results of a batch can be joined with the
instances of the file by their numbers: every look-up succeeds, and the pairs are those of the loop,
which goes through both lists in step. -/
theorem mapM_lookup?_readGraphs {task : GraphTask} {solver : Solver}
    {results : List (Instance String GraphSolution)}
    (solved : (task.solveAll solver (readGraphs lines)).result = .ok results) :
    results.mapM
        (fun result => (Instance.lookup? (readGraphs lines) result.index).map (·, result)) =
      some ((readGraphs lines).zip results) := by
  have distinct : ((readGraphs lines).map Instance.index).Nodup := by
    rw [index_readGraphs]
    exact Instance.nodup_index_number _
  have own := GraphTask.solveAll_solved solved
  exact Instance.mapM_lookup? distinct (own.imp fun _ _ => Solved.index_eq)

theorem saveTable_none {csv : Option String} (none : csv.getD "" = "") (table : Table)
    (console : Console) : saveTable csv table console = (console, .none) := by
  simp [saveTable, none]

/-- The report on the lines of a file: the heading, then the line on every instance. -/
def report (mode : Mode) (k : Option Int) (file : String) (lines : List String) : List String :=
  graphHeading mode k file ++ (readGraphs lines).map (reportLine mode k)

/-- The run prints the report and does nothing else but log. -/
theorem runGraphs_report (asks : order.Reports mode k file) (bound : ∀ b ∈ k, 0 ≤ b)
    (readable : tree.readLines file = .ok lines) :
    ∃ log, runGraphs (.zero false) mode order tree =
      (⟨report mode k file lines, log, tree⟩, none) := by
  let task : GraphTask := ⟨mode, k, order.settings.repair, order.settings.check, .zero false⟩
  have nodes : ∀ i ∈ readGraphs lines, ∀ g, i.content = .ok g → ∃ n, g.nodes = Label.upTo n :=
    fun i hi g => nodes_of_mem_readGraphs hi
  obtain ⟨results, solved, reported⟩ := task.solveAll_reported Model.minimise rfl bound nodes
  have printed := reportGraphs_lines reported mode
  simp only [runGraphs, asks.file, asks.bound, asks.figures, readable, task, solved, printed,
    saveTable_none asks.table]
  exact ⟨_, rfl⟩

theorem oneLine_graphHeading (mode : Mode) (k : Option Int) (name : OneLine file) :
    ∀ line ∈ graphHeading mode k file, OneLine line := by
  have what : ∀ text, OneLine text → OneLine s!"* {text} of every graph in {file} *" := by
    intro text plain
    repeat apply OneLine.append
    · decide
    · exact plain
    · decide
    · exact name
    · decide
  have bounded : ∀ text b, OneLine text → OneLine s!"{text}{ofInteger b}" :=
    fun text b plain => plain.append (oneLine_ofInteger b)
  intro line hl
  simp only [graphHeading, List.mem_cons, List.not_mem_nil, or_false] at hl
  rcases hl with rfl | rfl
  · apply what
    cases mode with
    | cover =>
      cases k with
      | none => decide
      | some b => exact bounded _ b (by decide)
    | clique =>
      cases k with
      | none => decide
      | some b => exact bounded _ b (by decide)
  · decide

theorem oneLine_report (name : OneLine file) (bound : ∀ b ∈ k, 0 ≤ b) :
    ∀ line ∈ report mode k file lines, OneLine line := by
  intro line hl
  rcases List.mem_append.mp hl with head | body
  · exact oneLine_graphHeading mode k name line head
  · obtain ⟨item, listed, rfl⟩ := List.mem_map.mp body
    exact oneLine_reportLine listed bound

/-- **The printed report.** Let a file be read into lines, and let the bound, if there is one, not be
negative. Every order for the report on the file prints the report on its lines and ends with status
zero, whatever else is asked for; there are arguments for such an order, unless the bound has too many
digits. If the name of the file is a single line, what is printed falls into the lines of the report.
The report has two lines of heading and one line for every instance, which depends on nothing but the
instance, the mode and the bound: it shows the error of a bad block, and what was found for a graph. -/
theorem solve_report (mode : Mode) (k : Option Int) (file : String) (tree : FileTree)
    (lines : List String) (bound : ∀ b ∈ k, 0 ≤ b) (readable : tree.readLines file = .ok lines) :
    (∀ args order, readOrder args = .ok order → order.Reports mode k file →
      (solve (.zero false) args tree).ending = .exit 0 ∧
      (solve (.zero false) args tree).out = linesText (report mode k file lines) ∧
      (OneLine file →
        Text.lines (solve (.zero false) args tree).out = report mode k file lines)) ∧
    ((∀ b ∈ k, b.natAbs < 10 ^ digitLimit) →
      ∃ order, readOrder (reportArgs mode k file) = .ok order ∧ order.Reports mode k file) ∧
    ∃ first second,
      report mode k file lines = first :: second :: (readGraphs lines).map (reportLine mode k) ∧
      ∀ item ∈ readGraphs lines,
        (∀ message, item.content = .error message →
          reportLine mode k item = s!"G{ofInteger item.index} skipped: {message}") ∧
        ∀ g, item.content = .ok g →
          ∃ ns, Shows mode k item.index g ns (reportLine mode k item) := by
  refine ⟨?_, ?_, _, _, rfl, ?_⟩
  · intro args order accepted asks
    obtain ⟨log, run⟩ := runGraphs_report asks bound readable
    have out : (solve (.zero false) args tree).out = linesText (report mode k file lines) := by
      simp only [solve, accepted, asks.task, run, close]
    have ending : (solve (.zero false) args tree).ending = .exit 0 := by
      simp only [solve, accepted, asks.task, run, close]
    refine ⟨ending, out, ?_⟩
    intro name
    rw [out]
    exact lines_join (oneLine_report name bound)
  · intro small
    exact ⟨_, readOrder_reportArgs mode file bound small, rfl, rfl, rfl, rfl, rfl⟩
  · rintro ⟨index, content⟩ listed
    constructor
    · rintro message ⟨⟩
      rfl
    · rintro g ⟨⟩
      obtain ⟨n, nodes⟩ := nodes_of_mem_readGraphs listed rfl
      exact reportLine_shows mode nodes bound index

/-- A bad header and two joined nodes, with a cover of no nodes asked for. -/
theorem solve_report_edge : ∃ (tree : FileTree) (line : String),
    tree.readLines "g.txt" = .ok ["x", "2", "01", "10"] ∧
    (solve (.zero false) ["vertex-cover", "--k", "0", "--", "g.txt"] tree).ending = .exit 0 ∧
    Text.lines (solve (.zero false) ["vertex-cover", "--k", "0", "--", "g.txt"] tree).out =
      ["* A Vertex Cover of size <= 0 of every graph in g.txt *",
        "   (|V|,|E|)   (size, ms used) Vertices",
        "G1 skipped: Graph 1: invalid vertex count 'x'", line] ∧
    missedMark.toList <:+ line.toList := by
  obtain ⟨tree, written⟩ : ∃ tree,
      FileTree.empty.save "g.txt" "x\n2\n01\n10\n" = (.ok (), tree) := ⟨_, rfl⟩
  let g := Graph.ofMatrix [[false, true], [true, false]]
  have split : Text.lines "x\n2\n01\n10\n" = ["x", "2", "01", "10"] := by decide
  have readable := (FileTree.save_holds written).readLines
  rw [split] at readable
  have instances : readGraphs ["x", "2", "01", "10"] =
      [⟨1, .error "Graph 1: invalid vertex count 'x'"⟩, ⟨2, .ok g⟩] := by
    have layout : Layout ["x", "2", "01", "10"]
        [⟨"x", [], by decide⟩, ⟨"2", ["01", "10"], by decide⟩] :=
      .block (b := ⟨"x", [], by decide⟩) (by decide) (by decide)
        (.block (b := ⟨"2", ["01", "10"], by decide⟩) (by decide) (by decide) .done)
    have bad : (⟨"x", [], by decide⟩ : Block).read = .error (.header "x") := rfl
    have good : (⟨"2", ["01", "10"], by decide⟩ : Block).read = .ok g := rfl
    have message : (BlockFault.header "x").message 1 = "Graph 1: invalid vertex count 'x'" := by
      decide
    rw [readGraphs, layout.readBlocks_eq, List.map_cons, List.map_cons, bad, good, ← message]
    rfl
  obtain ⟨runs, accepted, _, _, _, shown⟩ := solve_report .cover (some 0) "g.txt" tree
    ["x", "2", "01", "10"] (by rintro b ⟨⟩; decide) readable
  obtain ⟨order, taken, asks⟩ := accepted (by rintro b ⟨⟩; exact Nat.pow_pos (by decide))
  have args : reportArgs .cover (some 0) "g.txt" = ["vertex-cover", "--k", "0", "--", "g.txt"] := by
    decide
  rw [args] at taken
  obtain ⟨ending, _, printed⟩ := runs _ order taken asks
  have listed : (⟨2, .ok g⟩ : Instance String Graph) ∈ readGraphs ["x", "2", "01", "10"] := by
    rw [instances]
    exact List.mem_cons_of_mem _ List.mem_cons_self
  obtain ⟨ns, shows⟩ := (shown _ listed).2 g rfl
  refine ⟨tree, reportLine .cover (some 0) ⟨2, .ok g⟩, readable, ending, ?_, ?_⟩
  · rw [printed (by decide), report, instances]
    have skipped : reportLine .cover (some 0) ⟨1, .error "Graph 1: invalid vertex count 'x'"⟩ =
        "G1 skipped: Graph 1: invalid vertex count 'x'" := by decide
    rw [List.map_cons, skipped]
    exact congrArg (· :: _) (by decide)
  · refine shows.mark.mpr ⟨0, rfl, ?_⟩
    rintro ⟨others, cover, none⟩
    have nothing : others = [] := by
      have within : (others.length : Int) ≤ 0 := none
      exact List.eq_nil_of_length_eq_zero (by omega)
    have edge : g.Adj (.ofNat 0) (.ofNat 1) := by decide
    have met := cover.meets _ _ edge
    simp [nothing] at met

end VertexCover.Command
