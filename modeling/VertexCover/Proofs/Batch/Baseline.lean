import VertexCover.Proofs.Batch.Graphs
import VertexCover.Proofs.LinearModel

/-!
# The linear program beside the search

The size that a batch reports for a graph and the one that the linear program gives are both best
possible, in either mode, so the two columns of the table agree. For cliques the program is that of
the complement, and a smallest cover of the complement leaves a largest clique.

* `GraphTask.baselineSize_eq`: the two sizes for one graph;
* `GraphTask.solveAll_solved`: every row is the answer for its own instance;
* `baseline_agrees`: covers, and the columns of the table.
-/

namespace VertexCover

variable {solver : Solver} {g : Graph} {members : List Label}

/-- An instance and its own answer. -/
inductive Solved (task : GraphTask) (solver : Solver) :
    Instance String Graph → Instance String GraphSolution → Prop
  | failed (index : Int) (message : String) :
      Solved task solver ⟨index, .error message⟩ ⟨index, .error message⟩
  | solved (index : Int) {g : Graph} {s : GraphSolution} :
      (task.solve solver g).result = .ok s → Solved task solver ⟨index, .ok g⟩ ⟨index, .ok s⟩

theorem Solved.index_eq {task : GraphTask} {i : Instance String Graph}
    {result : Instance String GraphSolution} (own : Solved task solver i result) :
    result.index = i.index := by
  cases own <;> rfl

namespace GraphTask

variable {task : GraphTask} {instances : List (Instance String Graph)}
  {results : List (Instance String GraphSolution)}

/-- A set that is as good as any in its mode has the size that the linear program gives. -/
theorem baselineSize_eq (exact : solver.IsExact) (keeps : Keeps task.mode none g members) :
    task.baselineSize solver g = members.length := by
  unfold baselineSize
  cases mode : task.mode with
  | cover =>
    rw [mode] at keeps
    have least := g.isMinimumCover_baseline exact
    have below := least.least members keeps.fits
    have above : (members.length : Int) ≤ (g.baseline solver).members.length :=
      keeps.best rfl _ least.toIsVertexCover
    dsimp only
    omega
  | clique =>
    rw [mode] at keeps
    have least := g.complement.isMinimumCover_baseline exact
    have clique : g.IsClique members := keeps.fits
    have below := least.least _ clique.isVertexCover_without
    have above : ((g.without (g.complement.baseline solver).members).length : Int) ≤
        members.length := keeps.best rfl _ (Graph.isClique_without least.toIsVertexCover)
    have outside := clique.length_without
    have inside := Graph.length_without (g := g) least.nodup least.nodes
    dsimp only
    omega

theorem baselineSize_of_solve {s : GraphSolution} (check : task.check = true)
    (h : (task.solve solver g).result = .ok s) :
    s.baselineSize = some (task.baselineSize solver g) := by
  unfold solve at h
  dsimp only at h
  split at h
  · cases h
  · split at h
    · cases h
    · cases h
      exact if_pos check

/-- **Every result of a batch is the answer for its own instance.** -/
theorem solveAll_solved (h : (task.solveAll solver instances).result = .ok results) :
    List.Forall₂ (Solved task solver) instances results := by
  induction instances generalizing results with
  | nil =>
    cases h
    exact .nil
  | cons i rest ih =>
    obtain ⟨index, content⟩ := i
    cases content with
    | error message =>
      cases tail : (task.solveAll solver rest).result with
      | error fault => simp [solveAll, tail, Except.map] at h
      | ok later =>
        simp only [solveAll, tail, Except.map, Except.ok.injEq] at h
        subst h
        exact .cons (.failed index message) (ih tail)
    | ok g =>
      cases here : (task.solve solver g).result with
      | error fault => simp [solveAll, here] at h
      | ok s =>
        cases tail : (task.solveAll solver rest).result with
        | error fault => simp [solveAll, here, tail, Except.map] at h
        | ok later =>
          simp only [solveAll, here, tail, Except.map, Except.ok.injEq] at h
          subst h
          exact .cons (.solved index here) (ih tail)

end GraphTask

/-! ## The table -/

section
variable {results : List (Instance String GraphSolution)} {index : Int} {s : GraphSolution}

theorem lookup_baseline (index : Int) (same : s.baselineSize = some (s.members.length : Int)) :
    (graphRow ⟨index, .ok s⟩).lookup "ilp_size" = some (.int s.members.length) := by
  simp only [graphRow, same]
  cases s.k <;> rfl

/-- If the linear program gives the size of every answer, its column shows what the column of sizes
shows: gaps and doubles stand at the same places. -/
theorem graphTable_baseline {i : Nat} (h : results[i]? = some ⟨index, .ok s⟩)
    (same : ∀ r ∈ results, ∀ t, r.content = .ok t → t.baselineSize = some (t.members.length : Int)) :
    (graphTable results).cell i "ilp_size" = (graphTable results).cell i "size" := by
  have column : (results.map graphRow).map (Row.entry "ilp_size") =
      (results.map graphRow).map (Row.entry "size") := by
    apply List.map_congr_left
    intro row hr
    obtain ⟨⟨index, content⟩, listed, rfl⟩ := List.mem_map.mp hr
    cases content with
    | error message => rfl
    | ok t =>
      have found := lookup_baseline index (same _ listed t rfl)
      simp only [Row.entry, found]
      rfl
  have row : (results.map graphRow)[i]? = some (graphRow ⟨index, .ok s⟩) := by
    rw [List.getElem?_map, h]
    rfl
  have size : (graphRow ⟨index, .ok s⟩).lookup "size" = some (.int s.members.length) := rfl
  have found := lookup_baseline index (same _ (List.mem_of_getElem? h) s rfl)
  rw [graphTable, Table.cell_of_found row found, Table.cell_of_found row size, column]

end

/-- **The linear program agrees with the search.** Let a solver give an optimum of every program that
has a point. For every graph, the values that satisfy the constraints are the flags of its vertex
covers, and the cover read off the solver's answer has as many nodes as the one that the search
finds. In the table of a batch without a bound, the size by the linear program is the size of the
answer, a smallest cover or a largest clique. -/
theorem baseline_agrees (solver : Solver) (exact : solver.IsExact) :
    (∀ g : Graph,
      (∀ values, (g.model.feasible values = true ↔ g.model.Satisfies values) ∧
        (g.model.Satisfies values ↔
          values.length = g.order ∧ g.IsVertexCover (g.select values))) ∧
      ∀ repair, (g.baseline solver).members.length = (g.minimumCover repair).members.length) ∧
    ∀ (mode : Mode) (repair : Bool) (seconds : Double) (instances : List (Instance String Graph)),
      (∀ item ∈ instances, ∀ g, item.content = .ok g → ∀ v ∈ g.nodes, v.isInt = true) →
      ∃ results,
        (GraphTask.solveAll ⟨mode, none, repair, true, seconds⟩ solver instances).result =
          .ok results ∧
        ∀ i item g, instances[i]? = some item → item.content = .ok g → ∃ members,
          (graphTable results).ShowsMembers i item.index members ∧ mode.Fits g members ∧
          (∀ others, mode.Fits g others → mode.Reaches members.length others.length) ∧
          (graphTable results).cell i "ilp_size" = (graphTable results).cell i "size" := by
  constructor
  · intro g
    refine ⟨fun values => ⟨Model.feasible_iff, Graph.satisfies_model_iff⟩, fun repair => ?_⟩
    have baseline := g.isMinimumCover_baseline exact
    have best := g.isMinimumCover_select_best
    rw [Graph.members_minimumCover]
    exact Nat.le_antisymm (baseline.least _ best.toIsVertexCover)
      (best.least _ baseline.toIsVertexCover)
  · intro mode repair seconds instances labels
    let task : GraphTask := ⟨mode, none, repair, true, seconds⟩
    have unbounded : ∀ b ∈ task.k, 0 ≤ b := by rintro b ⟨⟩
    obtain ⟨results, solved, _⟩ := task.solveAll_answers solver unbounded labels
    have each := GraphTask.solveAll_solved solved
    have answers {g : Graph} {s : GraphSolution} {index : Int}
        (listed : ⟨index, .ok g⟩ ∈ instances) (found : (task.solve solver g).result = .ok s) :
        s.Answers task g := by
      obtain ⟨t, answer, right⟩ :=
        task.solve_answers solver unbounded (labels _ listed g rfl)
      cases Except.ok.inj (found.symm.trans answer)
      exact right
    have same : ∀ r ∈ results, ∀ s, r.content = .ok s →
        s.baselineSize = some (s.members.length : Int) := by
      intro r hr s hs
      obtain ⟨i, here⟩ := List.mem_iff_getElem?.mp hr
      obtain ⟨item, there, own⟩ := getElem?_of_forall₂ each.flip here
      cases own with
      | failed index message => cases hs
      | solved index found =>
        cases hs
        rw [GraphTask.baselineSize_of_solve rfl found,
          GraphTask.baselineSize_eq exact (answers (List.mem_of_getElem? there) found).keeps]
    refine ⟨results, solved, ?_⟩
    intro i item g here content
    obtain ⟨r, there, own⟩ := getElem?_of_forall₂ each here
    cases own with
    | failed index message => cases content
    | @solved index h s found =>
      cases content
      have right := answers (List.mem_of_getElem? here) found
      exact ⟨s.members, graphTable_members there right.valid, right.keeps.fits, right.keeps.best rfl,
        graphTable_baseline there same⟩

/-- A path with a loop at its end: covers need two nodes, and so do the largest cliques of a batch
that starts with a bad block. -/
theorem baseline_agrees_loop : ∃ g : Graph, g.nodes = Label.upTo 3 ∧
    g.edges = [(.int 2, .int 2), (.int 1, .int 2), (.int 0, .int 1)] ∧
    Solver.IsExact Model.minimise ∧
    (g.minimumCover true).members = [.int 1, .int 2] ∧
    (g.baseline Model.minimise).members.length = 2 ∧
    ∃ results,
      (GraphTask.solveAll ⟨.clique, none, true, true, .zero false⟩ Model.minimise
        [⟨1, .error "bad row"⟩, ⟨2, .ok g⟩]).result = .ok results ∧
      ∃ members, (graphTable results).ShowsMembers 1 2 members ∧ g.IsClique members ∧
        (graphTable results).cell 1 "ilp_size" = (graphTable results).cell 1 "size" := by
  let g := (Graph.empty 3).insertEdges [(.int 0, .int 1), (.int 1, .int 2), (.int 2, .int 2)]
  have found : (g.minimumCover true).members = [.int 1, .int 2] := by decide
  obtain ⟨graphs, tables⟩ := baseline_agrees Model.minimise Model.minimise_isExact
  have size := (graphs g).2 true
  rw [found] at size
  obtain ⟨results, solved, rows⟩ := tables .clique true (.zero false)
    [⟨1, .error "bad row"⟩, ⟨2, .ok g⟩] (by
      intro item hi h same
      have nodes : ∀ v ∈ g.nodes, v.isInt = true := by decide
      rcases List.mem_cons.mp hi with rfl | hi
      · cases same
      · cases List.mem_singleton.mp hi
        cases same
        exact nodes)
  obtain ⟨members, shown, clique, _, same⟩ := rows 1 _ g rfl rfl
  exact ⟨g, by decide, by decide, Model.minimise_isExact, found, size, results, solved, members,
    shown, clique, same⟩

end VertexCover
