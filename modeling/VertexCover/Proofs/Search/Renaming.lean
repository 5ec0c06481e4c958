import Mathlib.Data.List.Sort
import VertexCover.Graph.Description
import VertexCover.Proofs.Graph.Insertion
import VertexCover.Proofs.Search.Ties

/-!
# Searches do not see labels

A search sees the nodes of a graph by their positions only. Two graphs that join the same positions
are searched in the same way, whatever their labels and however their edges were given.

* `SamePlaces`: the two graphs join the same positions; `rename`: the node of the second graph at the
  position of a node of the first;
* `SamePlaces.positions_eq`: the lists of neighbours by position are equal, which carries over to
  everything that a search computes;
* `samePlaces_listed`: graphs that are built from renamed nodes, with edges in any order, direction
  and number;
* `searches_renamed`: answers are renamed, counters are equal.
-/

namespace VertexCover.Graph
open Search

variable {g h : Graph} {u v a : Label} {i : Nat} {flags : List Bool}

/-- Both graphs have equally many nodes, and the nodes at two positions are adjacent in both graphs
or in none. -/
structure SamePlaces (g h : Graph) : Prop where
  order : h.order = g.order
  adj : ∀ {i j : Nat} {u v a b : Label}, g.nodes[i]? = some u → g.nodes[j]? = some v →
    h.nodes[i]? = some a → h.nodes[j]? = some b → (h.Adj a b ↔ g.Adj u v)

/-- The node of the second graph at the position of a node of the first. -/
def rename (g h : Graph) (v : Label) : Label := h.nodes[g.nodes.idxOf v]?.getD v

/-! ## Positions -/

theorem SamePlaces.mem_around (same : g.SamePlaces h) {i j : Nat} :
    j ∈ around h.positions i ↔ j ∈ around g.positions i := by
  have known {k : Nat} : (∃ a, h.nodes[k]? = some a) ↔ ∃ u, g.nodes[k]? = some u := by
    have length : h.nodes.length = g.nodes.length := same.order
    simp only [List.getElem?_eq_some_iff, exists_comm, exists_eq', exists_prop, and_true, length]
  rw [mem_positions, mem_positions]
  constructor
  · rintro ⟨a, b, ha, hb, adj⟩
    obtain ⟨u, hu⟩ := known.mp ⟨a, ha⟩
    obtain ⟨v, hv⟩ := known.mp ⟨b, hb⟩
    exact ⟨u, v, hu, hv, (same.adj hu hv ha hb).mp adj⟩
  · rintro ⟨u, v, hu, hv, adj⟩
    obtain ⟨a, ha⟩ := known.mpr ⟨u, hu⟩
    obtain ⟨b, hb⟩ := known.mpr ⟨v, hv⟩
    exact ⟨a, b, ha, hb, (same.adj hu hv ha hb).mpr adj⟩

/-- **The lists of neighbours by position are equal.** -/
theorem SamePlaces.positions_eq (same : g.SamePlaces h) : h.positions = g.positions := by
  have listed {g : Graph} {i : Nat} (hi : i < g.positions.length) :
      g.positions[i] = around g.positions i := by
    simp [around, List.getElem?_eq_getElem hi]
  apply List.ext_getElem
  · rw [length_positions, length_positions, same.order]
  · intro i hi hi'
    rw [listed hi, listed hi']
    exact (h.pairwise_around i).eq_of_mem_iff (g.pairwise_around i) fun j => same.mem_around

/-- The search of a graph depends on the lists of neighbours only. -/
theorem explore_congr (same : h.positions = g.positions) (bounded : Bool) (target : Option Int) :
    h.explore bounded target = g.explore bounded target := by
  rw [explore, explore, candidates, candidates, initialCover, initialCover, same]

/-! ## Renamed answers -/

theorem rename_of_getElem? (hu : g.nodes[i]? = some u) (ha : h.nodes[i]? = some a) :
    g.rename h u = a := by
  obtain ⟨inside, value⟩ := List.getElem?_eq_some_iff.mp hu
  have place : g.nodes.idxOf u = i := by rw [← value, g.nodup.idxOf_getElem]
  rw [rename, place, ha, Option.getD_some]

theorem map_rename (order : h.order = g.order) : g.nodes.map (g.rename h) = h.nodes := by
  apply List.ext_getElem
  · rw [List.length_map]
    exact order.symm
  · intro i hi hi'
    rw [List.getElem_map]
    exact rename_of_getElem? (List.getElem?_eq_getElem _) (List.getElem?_eq_getElem hi')

theorem select_rename (order : h.order = g.order) :
    h.select flags = (g.select flags).map (g.rename h) := by
  rw [select, select, ← map_rename order, List.zip_map_left, List.filter_map, List.map_map,
    List.map_map]
  rfl

/-- A graph whose nodes are those of another one with new names, and whose edges are too. -/
theorem samePlaces_of_map {f : Label → Label} (renamed : h.nodes = g.nodes.map f)
    (adj : ∀ u ∈ g.nodes, ∀ v ∈ g.nodes, h.Adj (f u) (f v) ↔ g.Adj u v) :
    g.SamePlaces h ∧ ∀ v ∈ g.nodes, g.rename h v = f v := by
  have there {i : Nat} {u : Label} (hu : g.nodes[i]? = some u) : h.nodes[i]? = some (f u) := by
    rw [renamed, List.getElem?_map, hu, Option.map_some]
  refine ⟨⟨?_, ?_⟩, ?_⟩
  · rw [order, order, renamed, List.length_map]
  · intro i j u v a b hu hv ha hb
    cases (there hu).symm.trans ha
    cases (there hv).symm.trans hb
    exact adj u (List.mem_of_getElem? hu) v (List.mem_of_getElem? hv)
  · intro v hv
    obtain ⟨i, hi⟩ := List.mem_iff_getElem?.mp hv
    exact rename_of_getElem? hi (there hi)

/-! ## Graphs that are built -/

section
variable {nodes : List Label} {pairs others : List (Label × Label)} {f : Label → Label}

theorem mem_foldl_insertNode : v ∈ (nodes.foldl insertNode g).nodes ↔ v ∈ g.nodes ∨ v ∈ nodes := by
  induction nodes generalizing g with
  | nil => simp
  | cons u nodes ih => rw [List.foldl_cons, ih, mem_insertNode, List.mem_cons, or_assoc]

theorem edges_foldl_insertNode : (nodes.foldl insertNode g).edges = g.edges := by
  induction nodes generalizing g with
  | nil => rfl
  | cons v nodes ih => rw [List.foldl_cons, ih, edges_insertNode]

theorem mem_nodes_listed : v ∈ (nodes.foldl insertNode (empty 0)).nodes ↔ v ∈ nodes := by
  rw [mem_foldl_insertNode]
  exact or_iff_right List.not_mem_nil

theorem adj_listed : ((nodes.foldl insertNode (empty 0)).insertEdges pairs).Adj u v ↔
    (u, v) ∈ pairs ∨ (v, u) ∈ pairs := adj_insertEdges_of_nil edges_foldl_insertNode

/-- Nodes that are told apart by their new names are inserted at the same positions. -/
theorem foldl_insertNode_map
    (apart : ∀ u ∈ g.nodes ++ nodes, ∀ v ∈ g.nodes ++ nodes, f u = f v → u = v)
    (renamed : h.nodes = g.nodes.map f) :
    ((nodes.map f).foldl insertNode h).nodes = (nodes.foldl insertNode g).nodes.map f := by
  induction nodes generalizing g h with
  | nil => exact renamed
  | cons v nodes ih =>
    have known : f v ∈ h.nodes ↔ v ∈ g.nodes := by
      rw [renamed, List.mem_map]
      constructor
      · rintro ⟨u, hu, same⟩
        exact apart u (by simp [hu]) v (by simp) same ▸ hu
      · exact fun hv => ⟨v, hv, rfl⟩
    rw [List.map_cons, List.foldl_cons, List.foldl_cons]
    apply ih
    · have fewer : ∀ w ∈ (g.insertNode v).nodes ++ nodes, w ∈ g.nodes ++ v :: nodes := by
        intro w hw
        rw [List.mem_append, mem_insertNode] at hw
        simp only [List.mem_append, List.mem_cons]
        tauto
      exact fun u hu w hw => apart u (fewer u hu) w (fewer w hw)
    · unfold insertNode
      by_cases hv : v ∈ g.nodes
      · rw [dif_pos hv, dif_pos (known.mpr hv), renamed]
      · rw [dif_neg hv, dif_neg (known.not.mpr hv)]
        simp [renamed]

/-- A graph is built from nodes and edges, another one from the renamed nodes and from edges that
join the renamed ends, in any order, direction and number. -/
theorem samePlaces_listed (apart : ∀ u ∈ nodes, ∀ v ∈ nodes, f u = f v → u = v)
    (ends : ∀ e ∈ pairs, e.1 ∈ nodes ∧ e.2 ∈ nodes)
    (given : ∀ e ∈ pairs, (f e.1, f e.2) ∈ others ∨ (f e.2, f e.1) ∈ others)
    (meant : ∀ e ∈ others, ∃ u v, ((u, v) ∈ pairs ∨ (v, u) ∈ pairs) ∧ e = (f u, f v)) :
    ∃ g h, ofDescription (.listed nodes pairs) = .ok g ∧
      ofDescription (.listed (nodes.map f) others) = .ok h ∧
      g.SamePlaces h ∧ ∀ v ∈ nodes, g.rename h v = f v := by
  have known : ∀ e ∈ others, e.1 ∈ nodes.map f ∧ e.2 ∈ nodes.map f := by
    intro e he
    obtain ⟨u, v, joined, rfl⟩ := meant e he
    rcases joined with joined | joined
    · exact (ends _ joined).imp List.mem_map_of_mem List.mem_map_of_mem
    · exact (ends _ joined).symm.imp List.mem_map_of_mem List.mem_map_of_mem
  -- An edge between new names was meant for the nodes that have them.
  have old {u v : Label} (hu : u ∈ nodes) (hv : v ∈ nodes) (listed : (f u, f v) ∈ others) :
      (u, v) ∈ pairs ∨ (v, u) ∈ pairs := by
    obtain ⟨a, b, joined, same⟩ := meant _ listed
    have inside : a ∈ nodes ∧ b ∈ nodes := joined.elim (ends _ ·) fun turned => (ends _ turned).symm
    rwa [apart u hu a inside.1 (congrArg Prod.fst same),
      apart v hv b inside.2 (congrArg Prod.snd same)]
  have first := nodes_insertEdges (g := nodes.foldl insertNode (empty 0)) fun e he =>
    (ends e he).imp mem_nodes_listed.mpr mem_nodes_listed.mpr
  have second := nodes_insertEdges (g := (nodes.map f).foldl insertNode (empty 0)) fun e he =>
    (known e he).imp mem_nodes_listed.mpr mem_nodes_listed.mpr
  have renamed := foldl_insertNode_map (g := empty 0) (h := empty 0) apart rfl
  rw [← first, ← second] at renamed
  refine ⟨_, _, rfl, rfl, ?_⟩
  have same := samePlaces_of_map renamed fun u hu v hv => ?_
  · rw [first] at same
    exact ⟨same.1, fun v hv => same.2 v (mem_nodes_listed.mpr hv)⟩
  · rw [first, mem_nodes_listed] at hu hv
    rw [adj_listed, adj_listed]
    constructor
    · exact fun joined => joined.elim (old hu hv) fun turned => (old hv hu turned).symm
    · exact fun joined => joined.elim (given _ ·) fun turned => (given _ turned).symm

end

/-- **Searches do not see labels.** Let two graphs have equally many nodes and join the same
positions. Every minimum search and every bounded search returns on the second graph the renamed
nodes that it returns on the first, and counts the same branches, leaves, cuts and size. Two graphs
are such if one is built from renamed nodes in the same order, with the renamed edges in any order,
direction and number. -/
theorem searches_renamed :
    (∀ g h : Graph, g.SamePlaces h →
      (∀ (i : Nat) u, g.nodes[i]? = some u → h.nodes[i]? = some (g.rename h u)) ∧
      (∀ repair, (h.minimumCover repair).members =
          (g.minimumCover repair).members.map (g.rename h) ∧
        (h.minimumCover repair).stats = (g.minimumCover repair).stats) ∧
      ∀ k, 0 ≤ k → ∃ found other, g.coverAtMost k = .ok found ∧ h.coverAtMost k = .ok other ∧
        other.members = found.members.map (g.rename h) ∧ other.stats = found.stats) ∧
    ∀ (nodes : List Label) (f : Label → Label) (pairs others : List (Label × Label)),
      (∀ u ∈ nodes, ∀ v ∈ nodes, f u = f v → u = v) →
      (∀ e ∈ pairs, e.1 ∈ nodes ∧ e.2 ∈ nodes) →
      (∀ e ∈ pairs, (f e.1, f e.2) ∈ others ∨ (f e.2, f e.1) ∈ others) →
      (∀ e ∈ others, ∃ u v, ((u, v) ∈ pairs ∨ (v, u) ∈ pairs) ∧ e = (f u, f v)) →
      ∃ g h, ofDescription (.listed nodes pairs) = .ok g ∧
        ofDescription (.listed (nodes.map f) others) = .ok h ∧
        g.SamePlaces h ∧ ∀ v ∈ nodes, g.rename h v = f v := by
  refine ⟨fun g h same => ?_, fun _ _ _ _ => samePlaces_listed⟩
  have explored := explore_congr same.positions_eq
  refine ⟨?_, ?_, ?_⟩
  · intro i u hu
    rw [← map_rename same.order, List.getElem?_map, hu, Option.map_some]
  · intro repair
    constructor
    · rw [members_minimumCover, members_minimumCover, explored, select_rename same.order]
    · rw [minimumCover, minimumCover, explored]
  · intro k allowed
    have accepted (g : Graph) : g.coverAtMost k = .ok (g.boundedCover k) :=
      if_neg (Int.not_lt.mpr allowed)
    refine ⟨_, _, accepted g, accepted h, ?_, ?_⟩
    · rw [boundedCover, boundedCover, explored, select_rename same.order]
    · rw [boundedCover, boundedCover, explored]

/-- The path `0 - 1 - 2 - 3` and the same path with the names `d`, `c`, `b`, `a` and its edges given
in another order, one of them twice. -/
theorem searches_renamed_path : ∃ g h : Graph,
    ofDescription (.listed [.int 0, .int 1, .int 2, .int 3]
      [(.int 0, .int 1), (.int 1, .int 2), (.int 2, .int 3)]) = .ok g ∧
    ofDescription (.listed [.text "d", .text "c", .text "b", .text "a"]
      [(.text "a", .text "b"), (.text "c", .text "d"), (.text "b", .text "c"),
        (.text "c", .text "b")]) = .ok h ∧
    (g.minimumCover true).members = [.int 1, .int 3] ∧
    (h.minimumCover true).members = [.text "c", .text "a"] ∧
    (h.minimumCover true).stats = (g.minimumCover true).stats := by
  let f : Label → Label := fun v =>
    if v = .int 0 then .text "d" else if v = .int 1 then .text "c"
    else if v = .int 2 then .text "b" else .text "a"
  obtain ⟨g, h, built, other, same, renamed⟩ := searches_renamed.2
    [.int 0, .int 1, .int 2, .int 3] f [(.int 0, .int 1), (.int 1, .int 2), (.int 2, .int 3)]
    [(.text "a", .text "b"), (.text "c", .text "d"), (.text "b", .text "c"),
      (.text "c", .text "b")] (by decide) (by decide) (by decide) (by
        intro e he
        simp only [List.mem_cons, List.not_mem_nil, or_false] at he
        rcases he with rfl | rfl | rfl | rfl
        · exact ⟨.int 3, .int 2, by decide⟩
        · exact ⟨.int 1, .int 0, by decide⟩
        · exact ⟨.int 2, .int 1, by decide⟩
        · exact ⟨.int 1, .int 2, by decide⟩)
  obtain ⟨_, minimum, _⟩ := searches_renamed.1 g h same
  have answer : (g.minimumCover true).members = [.int 1, .int 3] := by
    cases built
    decide
  refine ⟨g, h, built, other, answer, ?_, (minimum true).2⟩
  rw [(minimum true).1, answer, List.map_cons, List.map_cons, List.map_nil,
    renamed _ (by decide), renamed _ (by decide)]
  decide

end VertexCover.Graph
