import VertexCover.Fault

/-! Finite undirected graphs.

A graph lists its nodes in the order in which they were added and every edge once, in one of its two
directions; an edge may join a node with itself. Both facts, and that an edge joins nodes of the
graph, are part of the type, so every graph that can be written down has them.

`insertNode` and `insertEdge` are the only ways in which graphs grow. What they do to the nodes, to
adjacency and to the number of edges is stated beside them. -/
namespace VertexCover

/-- The recorded edge joins the two labels, in either direction. -/
def joins (e : Label × Label) (u v : Label) : Bool :=
  (e.1 == u && e.2 == v) || (e.1 == v && e.2 == u)

theorem joins_iff {e : Label × Label} {u v : Label} :
    joins e u v = true ↔ e = (u, v) ∨ e = (v, u) := by
  obtain ⟨a, b⟩ := e
  simp [joins]

/-- A finite undirected graph. -/
structure Graph where
  /-- The nodes in the order of their insertion. -/
  nodes : List Label
  /-- Each edge once, the latest first. -/
  edges : List (Label × Label)
  /-- A frozen graph refuses new edges. -/
  frozen : Bool
  nodup : nodes.Nodup
  ends : ∀ e ∈ edges, e.1 ∈ nodes ∧ e.2 ∈ nodes
  once : edges.Pairwise fun e f => joins e f.1 f.2 = false

namespace Graph

/-- The number of nodes. -/
def order (g : Graph) : Nat := g.nodes.length

/-- The number of edges; a loop counts once. -/
def edgeCount (g : Graph) : Nat := g.edges.length

/-- Some edge joins the two labels. -/
def hasEdge (g : Graph) (u v : Label) : Bool := g.edges.any fun e => joins e u v

/-- The two labels are the ends of an edge; a label is adjacent to itself if it has a loop. -/
def Adj (g : Graph) (u v : Label) : Prop := g.hasEdge u v = true

instance (g : Graph) (u v : Label) : Decidable (g.Adj u v) := inferInstanceAs (Decidable (_ = _))

theorem adj_iff {g : Graph} {u v : Label} : g.Adj u v ↔ (u, v) ∈ g.edges ∨ (v, u) ∈ g.edges := by
  simp only [Adj, hasEdge, List.any_eq_true, joins_iff]
  constructor
  · rintro ⟨e, he, rfl | rfl⟩
    · exact .inl he
    · exact .inr he
  · rintro (h | h)
    · exact ⟨_, h, .inl rfl⟩
    · exact ⟨_, h, .inr rfl⟩

theorem Adj.symm {g : Graph} {u v : Label} (h : g.Adj u v) : g.Adj v u := by
  rw [adj_iff] at h ⊢
  exact h.symm

theorem adj_comm {g : Graph} {u v : Label} : g.Adj u v ↔ g.Adj v u := ⟨.symm, .symm⟩

theorem Adj.left_mem {g : Graph} {u v : Label} (h : g.Adj u v) : u ∈ g.nodes := by
  rw [adj_iff] at h
  exact h.elim (fun h => (g.ends _ h).1) fun h => (g.ends _ h).2

theorem Adj.right_mem {g : Graph} {u v : Label} (h : g.Adj u v) : v ∈ g.nodes := h.symm.left_mem

/-- The graph with the given nodes and no edge. -/
def edgeless (nodes : List Label) (nodup : nodes.Nodup) : Graph where
  nodes
  edges := []
  frozen := false
  nodup
  ends := by simp
  once := .nil

/-- The graph on `0, …, n - 1` without edges. -/
def empty (n : Nat) : Graph := edgeless (Label.upTo n) (Label.upTo_nodup n)

/-- The graph with edges that can no longer be added to. -/
def freeze (g : Graph) : Graph := { g with frozen := true }

/-- Adds a node at the end, unless it is there. -/
def insertNode (g : Graph) (v : Label) : Graph :=
  if h : v ∈ g.nodes then g
  else
    { g with
      nodes := g.nodes ++ [v]
      nodup := by
        rw [List.nodup_append]
        exact ⟨g.nodup, by simp, fun a ha b hb => by
          rw [List.mem_singleton] at hb
          exact fun same => h (hb ▸ same ▸ ha)⟩
      ends := fun e he => by
        have := g.ends e he
        simp [this.1, this.2] }

theorem mem_insertNode {g : Graph} {u v : Label} :
    u ∈ (g.insertNode v).nodes ↔ u ∈ g.nodes ∨ u = v := by
  unfold insertNode
  split
  · exact ⟨.inl, fun h => h.elim id fun same => by rwa [same]⟩
  · simp

theorem edges_insertNode (g : Graph) (v : Label) : (g.insertNode v).edges = g.edges := by
  unfold insertNode
  split <;> rfl

/-- Adds an edge between two nodes of the graph, unless it is there. -/
def link (g : Graph) (u v : Label) (hu : u ∈ g.nodes) (hv : v ∈ g.nodes) : Graph :=
  if h : g.hasEdge u v then g
  else
    { g with
      edges := (u, v) :: g.edges
      ends := fun e he => by
        rcases List.mem_cons.1 he with rfl | he
        · exact ⟨hu, hv⟩
        · exact g.ends e he
      once := by
        refine List.pairwise_cons.2 ⟨fun f hf => ?_, g.once⟩
        refine Bool.eq_false_iff.2 fun same => h ?_
        rw [hasEdge, List.any_eq_true]
        refine ⟨f, hf, ?_⟩
        rw [joins_iff] at same ⊢
        rcases same with same | same <;> simp_all }

/-- Adds an edge and, before it, those of its ends that are missing. -/
def insertEdge (g : Graph) (u v : Label) : Graph :=
  ((g.insertNode u).insertNode v).link u v (by simp [mem_insertNode]) (by simp [mem_insertNode])

/-- The given edges added one after the other. -/
def insertEdges (g : Graph) (pairs : List (Label × Label)) : Graph :=
  pairs.foldl (fun g e => g.insertEdge e.1 e.2) g

/-- Adds an edge between known nodes of a graph that is not frozen. -/
def addEdge (g : Graph) (u v : Label) : Except Fault Graph :=
  if !(g.nodes.contains u && g.nodes.contains v) then .error (.outsideEdge u v)
  else if g.frozen then .error .frozenGraph
  else .ok (g.insertEdge u v)

/-- The other ends of the edges at a node, the node itself for a loop. -/
def neighbours (g : Graph) (v : Label) : List Label :=
  g.edges.filterMap fun e =>
    if e.1 = v then some e.2 else if e.2 = v then some e.1 else none

/-- The neighbours of a node in node order. -/
def adjacent (g : Graph) (v : Label) : List Label :=
  let around := g.neighbours v
  g.nodes.filter (around.contains ·)

/-- The neighbours of a known node in node order. -/
def adjacent? (g : Graph) (v : Label) : Except Fault (List Label) :=
  if g.nodes.contains v then .ok (g.adjacent v) else .error (.unknownNode v)

/-- For every node the positions of its neighbours, ascending. -/
def positions (g : Graph) : List (List Nat) :=
  g.nodes.map fun v =>
    let around := g.neighbours v
    (g.nodes.zipIdx.filter fun (u, _) => around.contains u).map Prod.snd

/-- The membership flags of a set of labels, in node order. -/
def vector (g : Graph) (members : List Label) : List Bool := g.nodes.map (members.contains ·)

/-- The nodes whose flag is set. -/
def select (g : Graph) (flags : List Bool) : List Label :=
  ((g.nodes.zip flags).filter Prod.snd).map Prod.fst

/-- The nodes whose flag is set, if there is a flag for every node. -/
def select? (g : Graph) (flags : List Bool) : Except Fault (List Label) :=
  if flags.length = g.order then .ok (g.select flags)
  else .error (.vectorLength flags.length g.order)

/-- The nodes that are not among the given labels, in node order. -/
def without (g : Graph) (members : List Label) : List Label :=
  g.nodes.filter fun v => !members.contains v

end Graph

end VertexCover
