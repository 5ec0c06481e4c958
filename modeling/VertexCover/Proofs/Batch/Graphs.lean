import VertexCover.Batch.Graphs
import VertexCover.Proofs.Batch.Table
import VertexCover.Proofs.Check
import VertexCover.Proofs.Instance.Basic

/-!
# The table of a batch of graphs

Every graph is answered for itself by one of four searches, chosen by the mode and by whether a
bound is given. All four keep one contract, stated by mode: the members are what the mode asks for,
are as good as any if there is no bound, and meet a bound exactly if it can be met.

* `Mode.Fits`, `Mode.Reaches`: what a mode asks for, and when a size is as good as another;
* `Keeps`, `Graph.solve_keeps`: the contract of the four searches;
* `GraphTask.solve_answers`, `GraphTask.solveAll_answers`: one graph, and all instances;
* `graphTable_rows`: the rows of the table.
-/

namespace VertexCover

variable {g : Graph} {members others : List Label} {mode : Mode} {k : Option Int}

/-- The members are what the mode asks for. -/
def Mode.Fits (mode : Mode) (g : Graph) (members : List Label) : Prop :=
  match mode with
  | .cover => g.IsVertexCover members
  | .clique => g.IsClique members

/-- A set of this size is as good as the bound: covers should be small, cliques large. -/
def Mode.Reaches (mode : Mode) (size : Nat) (bound : Int) : Prop :=
  match mode with
  | .cover => (size : Int) ≤ bound
  | .clique => bound ≤ (size : Int)

/-! ## The searches -/

theorem Mode.Fits.nodup (h : mode.Fits g members) : members.Nodup := by
  cases mode with
  | cover => exact h.nodup
  | clique => exact h.nodup

theorem Mode.Fits.nodes (h : mode.Fits g members) : ∀ v ∈ members, v ∈ g.nodes := by
  cases mode with
  | cover => exact h.nodes
  | clique => exact h.nodes

theorem Mode.Fits.perm (h : mode.Fits g members) (same : others.Perm members) :
    mode.Fits g others := by
  have nodup := same.nodup_iff.mpr h.nodup
  have nodes : ∀ v ∈ others, v ∈ g.nodes := fun v hv => h.nodes v (same.mem_iff.mp hv)
  cases mode with
  | cover =>
    refine ⟨nodup, nodes, ?_⟩
    intro u v adj
    rw [same.mem_iff, same.mem_iff]
    exact h.meets u v adj
  | clique =>
    refine ⟨nodup, nodes, ?_⟩
    intro u hu v hv different
    exact h.adjacent u (same.mem_iff.mp hu) v (same.mem_iff.mp hv) different

theorem Label.comparable_of_isInt (h : ∀ v ∈ members, v.isInt = true) :
    Label.comparable members = true := by
  rw [comparable, List.all_eq_true.mpr h, Bool.true_or]

/-- What a search with these settings may return. -/
structure Keeps (mode : Mode) (k : Option Int) (g : Graph) (members : List Label) : Prop where
  fits : mode.Fits g members
  best : k = none → ∀ others, mode.Fits g others → mode.Reaches members.length others.length
  met : ∀ bound ∈ k, mode.Reaches members.length bound ↔
    ∃ others, mode.Fits g others ∧ mode.Reaches others.length bound

theorem Keeps.perm (h : Keeps mode k g members) (same : others.Perm members) :
    Keeps mode k g others where
  fits := h.fits.perm same
  best := same.length_eq ▸ h.best
  met := same.length_eq ▸ h.met

namespace Graph

theorem coverLogged_keeps (g : Graph) (repair : Bool) (seconds : Double) :
    ∃ members, (g.coverLogged repair seconds).result = .ok members ∧
      Keeps .cover none g members := by
  have minimum := g.isMinimumCover_select_best
  refine ⟨_, congrArg Except.ok (g.members_minimumCover repair), minimum.toIsVertexCover, ?_,
    by simp⟩
  intro _ others h
  exact Int.ofNat_le.mpr (minimum.least others h)

theorem coverAtMostLogged_keeps (g : Graph) {b : Int} (allowed : 0 ≤ b) (seconds : Double) :
    ∃ members, (g.coverAtMostLogged b seconds).result = .ok members ∧
      Keeps .cover (some b) g members := by
  have cover := g.boundedCover_isVertexCover b
  refine ⟨(g.boundedCover b).members, ?_, cover, by simp, ?_⟩
  · simp [coverAtMostLogged, coverAtMost, Int.not_lt.mpr allowed]
  · rintro _ ⟨⟩
    constructor
    · exact fun within => ⟨_, cover, within⟩
    · rintro ⟨others, h, within⟩
      rcases boundedCover_small b h with le | le
      · exact le
      · exact Int.le_trans (Int.ofNat_le.mpr le) within

theorem maximumCliqueLogged_keeps (labels : ∀ v ∈ g.nodes, v.isInt = true) (seconds : Double) :
    ∃ members, (g.maximumCliqueLogged seconds).result = .ok members ∧
      Keeps .clique none g members := by
  have clique := isClique_without g.complementCover_isVertexCover
  have plain : Label.comparable g.maximumClique.members = true := by
    rw [members_maximumClique]
    exact Label.comparable_of_isInt fun v hv => labels v (clique.nodes v hv)
  refine ⟨g.without g.complementCover, ?_, clique, ?_, by simp⟩
  · rw [result_maximumCliqueLogged, maximumClique?_eq_ok plain, members_maximumClique]
  · intro _ others h
    exact Int.ofNat_le.mpr h.length_le

theorem cliqueAtLeastLogged_keeps (g : Graph) {b : Int} (allowed : 0 ≤ b) (seconds : Double) :
    ∃ members, (g.cliqueAtLeastLogged b seconds).result = .ok members ∧
      Keeps .clique (some b) g members := by
  have result := g.result_cliqueAtLeast b seconds
  rw [if_neg (Int.not_lt.mpr allowed)] at result
  by_cases beyond : (g.order : Int) < b
  · rw [if_pos beyond] at result
    refine ⟨[], result, g.isClique_nil, by simp, ?_⟩
    rintro _ ⟨⟩
    constructor
    · exact fun within => ⟨_, g.isClique_nil, within⟩
    · rintro ⟨others, h, within⟩
      have fewer := IsClique.length_without h
      have size : b ≤ (others.length : Int) := within
      omega
  · rw [if_neg beyond] at result
    have clique := g.isClique_boundedClique b
    refine ⟨_, result, clique, by simp, ?_⟩
    rintro _ ⟨⟩
    constructor
    · exact fun within => ⟨_, clique, within⟩
    · rintro ⟨others, h, within⟩
      exact le_length_boundedClique h within

/-- **All searches keep the contract.** -/
theorem solve_keeps (mode : Mode) (repair : Bool) (seconds : Double) (bound : ∀ b ∈ k, 0 ≤ b)
    (labels : ∀ v ∈ g.nodes, v.isInt = true) :
    ∃ members, (g.solve mode k repair seconds).result = .ok members ∧ Keeps mode k g members := by
  cases mode with
  | cover =>
    cases k with
    | none => exact g.coverLogged_keeps repair seconds
    | some b => exact g.coverAtMostLogged_keeps (bound b rfl) seconds
  | clique =>
    cases k with
    | none => exact maximumCliqueLogged_keeps labels seconds
    | some b => exact g.cliqueAtLeastLogged_keeps (bound b rfl) seconds

end Graph

/-! ## One graph and all instances -/

/-- The solution shows what was found, its check and whether it meets the bound. -/
structure GraphSolution.Answers (task : GraphTask) (g : Graph) (s : GraphSolution) : Prop where
  keeps : Keeps task.mode task.k g s.members
  valid : s.valid = true
  bound : s.k = task.k
  targetMet : ∀ b ∈ task.k, (s.targetMet = true ↔ task.mode.Reaches s.members.length b)

/-- An instance and what the batch says about it. -/
inductive Answered (task : GraphTask) : Instance String Graph → Instance String GraphSolution → Prop
  | failed (index : Int) (message : String) :
      Answered task ⟨index, .error message⟩ ⟨index, .error message⟩
  | solved (index : Int) {g : Graph} {s : GraphSolution} :
      s.Answers task g → Answered task ⟨index, .ok g⟩ ⟨index, .ok s⟩

namespace GraphTask

variable {task : GraphTask}

theorem accepts_of_fits (h : task.mode.Fits g members) : task.accepts g members = true := by
  unfold accepts
  cases mode : task.mode with
  | cover =>
    rw [mode] at h
    exact Graph.isCover_iff.mpr h.meets
  | clique =>
    rw [mode] at h
    exact (Graph.isClique_iff h.nodup).mpr h.adjacent

theorem meets_iff {b : Int} (hb : b ∈ task.k) (size : Nat) :
    task.meets size = true ↔ task.mode.Reaches size b := by
  unfold meets Mode.Reaches
  rw [Option.mem_def.mp hb]
  cases task.mode <;> exact decide_eq_true_iff

theorem solve_answers (solver : Solver) (bound : ∀ b ∈ task.k, 0 ≤ b)
    (labels : ∀ v ∈ g.nodes, v.isInt = true) :
    ∃ s, (task.solve solver g).result = .ok s ∧ s.Answers task g := by
  obtain ⟨members, found, keeps⟩ := g.solve_keeps task.mode task.repair task.seconds bound labels
  have plain : Label.comparable members = true :=
    Label.comparable_of_isInt fun v hv => labels v (keeps.fits.nodes v hv)
  have sorted : Label.sort? members = some (Label.sort members) := if_pos plain
  have same : (Label.sort members).Perm members := List.mergeSort_perm members Label.le
  unfold solve
  simp only [found, sorted]
  refine ⟨_, rfl, keeps.perm same, accepts_of_fits keeps.fits, rfl, ?_⟩
  intro b hb
  rw [meets_iff hb, same.length_eq]

/-- **Every instance of a batch is answered.** -/
theorem solveAll_answers (solver : Solver) (bound : ∀ b ∈ task.k, 0 ≤ b)
    {instances : List (Instance String Graph)}
    (labels : ∀ i ∈ instances, ∀ g, i.content = .ok g → ∀ v ∈ g.nodes, v.isInt = true) :
    ∃ results, (task.solveAll solver instances).result = .ok results ∧
      List.Forall₂ (Answered task) instances results := by
  induction instances with
  | nil => exact ⟨[], rfl, .nil⟩
  | cons i rest ih =>
    obtain ⟨results, answered, later⟩ := ih fun j hj => labels j (List.mem_cons_of_mem _ hj)
    obtain ⟨index, content⟩ := i
    cases content with
    | error message =>
      refine ⟨⟨index, .error message⟩ :: results, ?_, .cons (.failed index message) later⟩
      simp [solveAll, answered, Except.map]
    | ok g =>
      obtain ⟨s, solved, here⟩ :=
        solve_answers solver bound (labels _ List.mem_cons_self g rfl)
      refine ⟨⟨index, .ok s⟩ :: results, ?_, .cons (.solved index here) later⟩
      simp [solveAll, solved, answered, Except.map]

end GraphTask

/-! ## The table -/

namespace Table

/-- The row of an instance that was not read has its number and its error, and no solution. -/
structure ShowsError (t : Table) (i : Nat) (index : Int) (message : String) : Prop where
  graph : t.cell i "graph" = some (.int index)
  error : t.cell i "error" = some (.text message)
  rest : ∀ name ∈ t.columns, name ≠ "graph" → name ≠ "error" → t.cell i name = some .missing

/-- The row of a graph lists the members; their number is a double where errors leave a gap in its
column. -/
structure ShowsMembers (t : Table) (i : Nat) (index : Int) (members : List Label) : Prop where
  graph : t.cell i "graph" = some (.int index)
  error : t.cell i "error" = some .missing
  vertices : t.cell i "vertices" = some (.labels members)
  size : t.cell i "size" = some (.int members.length) ∨
    t.cell i "size" = some (.real (.ofInt members.length))
  valid : t.cell i "valid" = some (.truth true)

end Table

section
variable {results : List (Instance String GraphSolution)} {i : Nat} {index : Int}

theorem graph_column : ∀ row ∈ results.map graphRow, Row.entry "graph" row ≠ .missing := by
  intro row hr
  obtain ⟨⟨index, content⟩, _, rfl⟩ := List.mem_map.mp hr
  cases content with
  | error message => simp [graphRow, Row.entry]
  | ok s => simp [graphRow, Row.entry]

theorem graphTable_error {message : String} (h : results[i]? = some ⟨index, .error message⟩) :
    (graphTable results).ShowsError i index message := by
  have row : (results.map graphRow)[i]? =
      some [("graph", .int index), ("error", .text message)] := by
    rw [List.getElem?_map, h]
    rfl
  refine ⟨Table.cell_of_full row rfl graph_column, Table.cell_of_plain row rfl rfl, ?_⟩
  intro name listed other another
  apply Table.cell_of_absent row listed
  rw [List.lookup_eq_none_iff]
  simp [other, another]

theorem graphTable_members {s : GraphSolution} (h : results[i]? = some ⟨index, .ok s⟩)
    (valid : s.valid = true) : (graphTable results).ShowsMembers i index s.members := by
  have row : (results.map graphRow)[i]? = some (graphRow ⟨index, .ok s⟩) := by
    rw [List.getElem?_map, h]
    rfl
  constructor
  · exact Table.cell_of_full row rfl graph_column
  · exact Table.cell_of_plain row rfl rfl
  · exact Table.cell_of_plain row rfl rfl
  · have size : (graphTable results).cell i "size" = _ :=
      Table.cell_of_found (c := .int s.members.length) row rfl
    rw [size]
    split
    · exact .inr rfl
    · exact .inl rfl
  · rw [← valid]
    exact Table.cell_of_plain row rfl rfl

theorem graphTable_targetMet {s : GraphSolution} {b : Int}
    (h : results[i]? = some ⟨index, .ok s⟩) (bound : s.k = some b) :
    (graphTable results).cell i "target_met" = some (.truth s.targetMet) := by
  have row : (results.map graphRow)[i]? = some (graphRow ⟨index, .ok s⟩) := by
    rw [List.getElem?_map, h]
    rfl
  have found : (graphRow ⟨index, .ok s⟩).lookup "target_met" = some (.truth s.targetMet) := by
    simp only [graphRow, bound]
    rfl
  exact Table.cell_of_plain row found rfl

end

/-- **The table of a batch.** If every instance has an error or a graph with integers for labels,
and the bound, if there is one, is not negative, then the table has a row for every instance, in
their order and with their numbers. An instance that was not read shows its error and no solution.
For a graph the row lists members that pass the check of the mode, with their number. Without a
bound they are a smallest cover or a largest clique, and with a bound the row says whether some
cover or clique meets it. -/
theorem graphTable_rows (task : GraphTask) (solver : Solver)
    (instances : List (Instance String Graph)) (bound : ∀ b ∈ task.k, 0 ≤ b)
    (labels : ∀ item ∈ instances, ∀ g, item.content = .ok g → ∀ v ∈ g.nodes, v.isInt = true) :
    ∃ results, (task.solveAll solver instances).result = .ok results ∧
      (graphTable results).rows.length = instances.length ∧
      ∀ i item, instances[i]? = some item →
        (∀ message, item.content = .error message →
          (graphTable results).ShowsError i item.index message) ∧
        ∀ g, item.content = .ok g → ∃ members,
          (graphTable results).ShowsMembers i item.index members ∧ task.mode.Fits g members ∧
          (task.k = none → ∀ others, task.mode.Fits g others →
            task.mode.Reaches members.length others.length) ∧
          ∀ b ∈ task.k, ∃ met, (graphTable results).cell i "target_met" = some (.truth met) ∧
            (met = true ↔ ∃ others, task.mode.Fits g others ∧
              task.mode.Reaches others.length b) := by
  obtain ⟨results, solved, answered⟩ := task.solveAll_answers solver bound labels
  refine ⟨results, solved, by simp [graphTable, Table.ofRows, answered.length_eq], ?_⟩
  intro i item here
  obtain ⟨result, there, answer⟩ := getElem?_of_forall₂ answered here
  cases answer with
  | failed index message =>
    constructor
    · rintro _ ⟨⟩
      exact graphTable_error there
    · rintro g ⟨⟩
  | @solved index g s answers =>
    constructor
    · rintro message ⟨⟩
    · rintro _ ⟨⟩
      refine ⟨s.members, graphTable_members there answers.valid, answers.keeps.fits,
        answers.keeps.best, ?_⟩
      intro b hb
      refine ⟨s.targetMet, graphTable_targetMet there (answers.bound.trans hb), ?_⟩
      rw [answers.targetMet b hb]
      exact answers.keeps.met b hb

/-- A bad block and two joined nodes, with cliques of three nodes asked for. -/
theorem graphTable_rows_pair : ∃ results,
    (GraphTask.solveAll ⟨.clique, some 3, true, false, .zero false⟩ Model.minimise
      [⟨1, .error "bad row"⟩, ⟨2, .ok ((Graph.empty 2).insertEdge (.int 0) (.int 1))⟩]).result =
        .ok results ∧
    (graphTable results).rows.length = 2 ∧
    (graphTable results).ShowsError 0 1 "bad row" ∧
    ∃ members, (graphTable results).ShowsMembers 1 2 members ∧
      (graphTable results).cell 1 "target_met" = some (.truth false) := by
  let g := (Graph.empty 2).insertEdge (.int 0) (.int 1)
  obtain ⟨results, solved, length, rows⟩ := graphTable_rows
    ⟨.clique, some 3, true, false, .zero false⟩ Model.minimise
    [⟨1, .error "bad row"⟩, ⟨2, .ok g⟩] (by rintro b ⟨⟩; decide) (by
      intro item hi h same
      have nodes : ∀ v ∈ g.nodes, v.isInt = true := by decide
      rcases List.mem_cons.mp hi with rfl | hi
      · cases same
      · cases List.mem_singleton.mp hi
        cases same
        exact nodes)
  obtain ⟨members, shown, _, _, target⟩ := (rows 1 _ rfl).2 g rfl
  obtain ⟨met, cell, decides⟩ := target 3 rfl
  refine ⟨results, solved, length, (rows 0 _ rfl).1 _ rfl, members, shown, ?_⟩
  cases met with
  | false => exact cell
  | true =>
    obtain ⟨others, clique, size⟩ := decides.mp rfl
    have fewer := Graph.IsClique.length_without clique
    have order : g.order = 2 := by decide
    have size : (3 : Int) ≤ others.length := size
    omega

end VertexCover
