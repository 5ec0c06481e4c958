import VertexCover.Graph.Session
import VertexCover.Proofs.Clique
import VertexCover.Proofs.Graph.Insertion

/-!
# Sessions keep a graph well formed

A session takes steps of three kinds: queries only look at the graph, replacements put another graph
in its place, and two steps change it: one adds an edge and one freezes it.

* `Moves`: what a step can do, one case for each way in which it ends; `step_moves`: every step does
  one of these;
* `insertEdge_of_adj`, `edgeCount_insertEdge`: a known edge changes nothing, a new one is counted once;
* `after_of_frozen`: without a replacement a frozen graph stays as it is, however many steps follow;
* `session_keeps`: what holds in every state that a session reaches, and at every step.
-/

namespace VertexCover.Graph

variable {g next : Graph} {s : Step} {outcome : Except Fault Answer} {steps : List Step}
  {u v : Label}

/-- The step only looks at the graph. -/
def Step.isQuery : Step → Bool
  | .adjacency _ | .matrix | .vector _ | .select _ | .edges | .block => true
  | _ => false

/-- The step puts another graph in the place of the old one. -/
def Step.isReplacement : Step → Bool
  | .empty _ | .build _ | .complement => true
  | _ => false

/-- The graph after some steps. -/
def after (g : Graph) (steps : List Step) : Graph := steps.foldl advance g

/-! ## One step -/

/-- What a step can do: its outcome and the graph after it. -/
inductive Moves (g : Graph) : Step → Except Fault Answer → Graph → Prop where
  | failed (s : Step) (fault : Fault) : Moves g s (.error fault) g
  | looked {s : Step} (answer : Answer) : s.isQuery = true → Moves g s (.ok answer) g
  | froze : Moves g .freeze (.ok (.frozen true)) g.freeze
  | joined {u v : Label} : u ∈ g.nodes → v ∈ g.nodes → g.frozen = false →
      Moves g (.addEdge u v) (.ok .done) (g.insertEdge u v)
  | emptied {n : Int} : 0 ≤ n → Moves g (.empty n) (.ok .done) (empty n.toNat)
  | built {description : Description} {h : Graph} : ofDescription description = .ok h →
      Moves g (.build description) (.ok .done) h
  | complemented : Moves g .complement (.ok .done) g.complement

/-- An edge is refused for its ends before it is refused because the graph is frozen. -/
theorem addEdge_eq (g : Graph) (u v : Label) : g.addEdge u v =
    if u ∈ g.nodes ∧ v ∈ g.nodes then
      if g.frozen then .error .frozenGraph else .ok (g.insertEdge u v)
    else .error (.outsideEdge u v) := by
  by_cases known : u ∈ g.nodes ∧ v ∈ g.nodes
  · simp [addEdge, known]
  · have unknown : (g.nodes.contains u && g.nodes.contains v) = false := by
      simpa [Bool.eq_false_iff] using known
    rw [addEdge, unknown, if_neg known]
    rfl

/-- **Every step does one of these.** -/
theorem step_moves (g : Graph) (s : Step) : Moves g s ((g.step s).map Prod.fst) (g.advance s) := by
  unfold advance
  cases s with
  | empty n =>
    rw [step, ofCount]
    split
    · exact .failed _ _
    · exact .emptied (by omega)
  | build description =>
    rw [step]
    cases built : ofDescription description with
    | error fault => exact .failed _ _
    | ok h => exact .built built
  | addEdge u v =>
    rw [step, addEdge_eq]
    split
    · rename_i known
      split
      · exact .failed _ _
      · rename_i thawed
        exact .joined known.1 known.2 (Bool.eq_false_iff.mpr thawed)
    · exact .failed _ _
  | freeze => exact .froze
  | complement => exact .complemented
  | adjacency v =>
    rw [step, adjacent?]
    split
    · exact .looked _ rfl
    · exact .failed _ _
  | select flags =>
    rw [step, select?]
    split
    · exact .looked _ rfl
    · exact .failed _ _
  | matrix | vector | edges | block => exact .looked _ rfl

/-! ## What a step leaves alone -/

/-- An edge that is there changes nothing, whichever end is named first. -/
theorem insertEdge_of_adj (adj : g.Adj u v) : g.insertEdge u v = g := by
  have first := insertNode_of_mem adj.left_mem
  have second := insertNode_of_mem adj.right_mem
  simp only [insertEdge, first, second]
  exact dif_pos adj

theorem edgeCount_insertEdge (absent : ¬ g.Adj u v) :
    (g.insertEdge u v).edgeCount = g.edgeCount + 1 := by
  have absent : ¬ ((g.insertNode u).insertNode v).hasEdge u v = true := by
    rwa [← Adj, adj_insertNode, adj_insertNode]
  rw [insertEdge, link, dif_neg absent, edgeCount, List.length_cons, edges_insertNode,
    edges_insertNode, edgeCount]

theorem frozen_insertEdge (g : Graph) (u v : Label) : (g.insertEdge u v).frozen = g.frozen := by
  have node (g : Graph) (v : Label) : (g.insertNode v).frozen = g.frozen := by
    unfold insertNode
    split <;> rfl
  have edge {g : Graph} (hu : u ∈ g.nodes) (hv : v ∈ g.nodes) :
      (g.link u v hu hv).frozen = g.frozen := by
    unfold link
    split <;> rfl
  rw [insertEdge, edge, node, node]

theorem freeze_of_frozen (frozen : g.frozen = true) : g.freeze = g := by
  cases g
  cases frozen
  rfl

theorem Moves.eq_of_failed {fault : Fault} (h : Moves g s (.error fault) next) : next = g := by
  cases h
  rfl

theorem Moves.eq_of_query (h : Moves g s outcome next) (query : s.isQuery = true) : next = g := by
  cases h with
  | failed | looked => rfl
  | froze | joined | emptied | built | complemented => cases query

/-- A frozen graph is left as it is by every step that puts no other graph in its place. -/
theorem Moves.eq_of_frozen (h : Moves g s outcome next) (frozen : g.frozen = true)
    (stays : s.isReplacement = false) : next = g := by
  cases h with
  | failed | looked => rfl
  | froze => exact freeze_of_frozen frozen
  | joined _ _ thawed => simp [frozen] at thawed
  | emptied | built | complemented => cases stays

theorem after_of_frozen (frozen : g.frozen = true) (stays : ∀ s ∈ steps, s.isReplacement = false) :
    g.after steps = g := by
  induction steps with
  | nil => rfl
  | cons s steps ih =>
    have here := (g.step_moves s).eq_of_frozen frozen (stays s List.mem_cons_self)
    rw [after, List.foldl_cons, here]
    exact ih fun t ht => stays t (List.mem_cons_of_mem _ ht)

/-! ## Sessions -/

theorem session_append (g : Graph) (steps more : List Step) :
    g.session (steps ++ more) = g.session steps ++ (g.after steps).session more := by
  induction steps generalizing g with
  | nil => rfl
  | cons s steps ih => rw [List.cons_append, session, ih, session, List.cons_append]; rfl

/-- Labels are distinct, every edge joins nodes of the graph and is there once, and a node is listed
at another one exactly if that one is listed at it. -/
structure WellFormed (g : Graph) : Prop where
  labels : g.nodes.Nodup
  ends : ∀ e ∈ g.edges, e.1 ∈ g.nodes ∧ e.2 ∈ g.nodes
  once : g.edges.Pairwise fun e f => joins e f.1 f.2 = false
  symm : ∀ u v, u ∈ g.adjacent v ↔ v ∈ g.adjacent u

theorem wellFormed (g : Graph) : g.WellFormed where
  labels := g.nodup
  ends := g.ends
  once := g.once
  symm := by
    intro u v
    rw [mem_adjacent, mem_adjacent, adj_comm]

/-- What is promised of a step with this outcome, from one graph to the next. -/
structure Step.Respects (s : Step) (g : Graph) (outcome : Except Fault Answer) (next : Graph) :
    Prop where
  failed : ∀ fault, outcome = .error fault → next = g
  query : s.isQuery = true → next = g
  /-- An edge whose ends are known, in a graph that is not frozen. -/
  joined : ∀ u v, s = .addEdge u v → u ∈ g.nodes → v ∈ g.nodes → g.frozen = false →
    outcome = .ok .done ∧ next.nodes = g.nodes ∧ next.frozen = false ∧
    (∀ a b, next.Adj a b ↔ g.Adj a b ∨ (a, b) = (u, v) ∨ (b, a) = (u, v)) ∧
    (¬ g.Adj u v → next.edgeCount = g.edgeCount + 1) ∧ (g.Adj u v → next = g)
  /-- Unknown ends are told before the frozen graph. -/
  refused : ∀ u v, s = .addEdge u v →
    (u ∉ g.nodes ∨ v ∉ g.nodes → outcome = .error (.outsideEdge u v)) ∧
    (u ∈ g.nodes → v ∈ g.nodes → g.frozen = true → outcome = .error .frozenGraph)
  frozen : g.frozen = true → s.isReplacement = false → next = g
  emptied : ∀ n, s = .empty n → 0 ≤ n → next = Graph.empty n.toNat
  built : ∀ description h, s = .build description → ofDescription description = .ok h → next = h
  complemented : s = .complement → next.nodes = g.nodes ∧ next.frozen = false ∧
    ∀ u ∈ g.nodes, ∀ v ∈ g.nodes, next.Adj u v ↔ u ≠ v ∧ ¬ g.Adj u v

theorem step_respects (g : Graph) (s : Step) :
    s.Respects g ((g.step s).map Prod.fst) (g.advance s) := by
  have moves := g.step_moves s
  refine ⟨?_, moves.eq_of_query, ?_, ?_, moves.eq_of_frozen, ?_, ?_, ?_⟩
  · intro fault failed
    rw [failed] at moves
    exact moves.eq_of_failed
  · rintro u v rfl hu hv thawed
    have added : g.step (.addEdge u v) = .ok (.done, g.insertEdge u v) := by
      rw [step, addEdge_eq, if_pos ⟨hu, hv⟩, thawed]
      rfl
    have next : g.advance (.addEdge u v) = g.insertEdge u v := by rw [advance, added]
    rw [added, next]
    exact ⟨rfl, nodes_insertEdge hu hv, (g.frozen_insertEdge u v).trans thawed,
      fun a b => adj_insertEdge, edgeCount_insertEdge, insertEdge_of_adj⟩
  · rintro u v rfl
    constructor
    · intro unknown
      rw [step, addEdge_eq, if_neg (by tauto)]
      rfl
    · intro hu hv frozen
      rw [step, addEdge_eq, if_pos ⟨hu, hv⟩, if_pos frozen]
      rfl
  · rintro n rfl positive
    rw [advance, step, ofCount, if_neg (Int.not_lt.mpr positive)]
    rfl
  · rintro description h rfl built
    rw [advance, step, built]
    rfl
  · rintro rfl
    refine ⟨rfl, rfl, fun u hu v hv => ?_⟩
    change g.complement.Adj u v ↔ _
    rw [adj_complement]
    exact ⟨fun h => h.2.2, fun h => ⟨hu, hv, h⟩⟩

/-- **Sessions keep a well-formed graph.** Let `g` be the graph that any steps lead to, from the
graph without nodes. It is well formed. Whatever step comes next answers with its outcome and leaves
its graph behind: a failed step and a query change nothing; an edge between known nodes of a graph
that is not frozen is counted if it is new and changes nothing if it is not; and a replacement puts a
new graph in the place of the old one. Once the graph is frozen, it stays as it is until it is
replaced. -/
theorem session_keeps (steps : List Step) (s : Step) :
    let g := (empty 0).after steps
    (empty 0).session (steps ++ [s]) =
      (empty 0).session steps ++ [((g.step s).map Prod.fst, (empty 0).after (steps ++ [s]))] ∧
    g.WellFormed ∧
    s.Respects g ((g.step s).map Prod.fst) ((empty 0).after (steps ++ [s])) ∧
    (g.frozen = true → ∀ later : List Step, (∀ t ∈ later, t.isReplacement = false) →
      (empty 0).after (steps ++ later) = g) := by
  intro g
  have next (more : List Step) : (empty 0).after (steps ++ more) = g.after more := by
    rw [after, List.foldl_append]
    rfl
  rw [next [s]]
  refine ⟨session_append _ _ _, g.wellFormed, g.step_respects s, ?_⟩
  intro frozen later stays
  rw [next later]
  exact after_of_frozen frozen stays

/-- Two nodes are joined and the graph is frozen; a loop is refused after that. -/
theorem session_keeps_frozen : ∃ g : Graph, g.frozen = true ∧ g.edgeCount = 1 ∧
    (empty 0).after [.empty 2, .addEdge (.int 0) (.int 1), .freeze] = g ∧
    (empty 0).after ([.empty 2, .addEdge (.int 0) (.int 1), .freeze] ++
      [.addEdge (.int 0) (.int 0), .matrix, .freeze]) = g := by
  obtain ⟨_, _, _, stays⟩ :=
    session_keeps [.empty 2, .addEdge (.int 0) (.int 1), .freeze] (.addEdge (.int 0) (.int 0))
  refine ⟨_, rfl, rfl, rfl, stays rfl [.addEdge (.int 0) (.int 0), .matrix, .freeze] ?_⟩
  simp [Step.isReplacement]

end VertexCover.Graph
