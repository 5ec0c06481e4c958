import VertexCover.Graph.Description
import VertexCover.Proofs.Graph.Edges
import VertexCover.Proofs.Graph.Matrix
import VertexCover.Proofs.Graph.Session

/-!
# Matrices and graphs, there and back

A matrix is read as the graph in which two nodes are joined if one of the two entries between them is
set, so the matrix of that graph is the first one made symmetric.

* `rowsOf`: the rows of a matrix given by its entries;
* `matrix_ofMatrix_rowsOf`: what becomes of a matrix; `numbers_ofMatrix` says what becomes of a graph;
* `addEdges_setPairs`: reading a matrix is adding its set entries one after the other, row by row;
* `ofNested_rowsOf_error`: a matrix that is no square is refused;
* `matrix_round_trip`: all of it together.
-/

namespace VertexCover.Graph

variable {g : Graph} {rows : List (List Bool)} {pairs : List (Label × Label)} {n c i j : Nat}
  {u v : Label}

/-- The rows of the matrix with the given entries. -/
def rowsOf (M : Fin n → Fin c → Bool) : List (List Bool) := List.ofFn fun i => List.ofFn (M i)

@[simp] theorem length_rowsOf (M : Fin n → Fin c → Bool) : (rowsOf M).length = n :=
  List.length_ofFn

theorem width_rowsOf (M : Fin n → Fin c → Bool) : ∀ row ∈ rowsOf M, row.length = c := by
  intro row hr
  obtain ⟨i, rfl⟩ := (List.mem_ofFn' _ _).mp hr
  exact List.length_ofFn

theorem square_rowsOf (M : Fin n → Fin n → Bool) : Square (rowsOf M) := by
  intro row hr
  rw [width_rowsOf M row hr, length_rowsOf]

theorem entryAt_rowsOf {M : Fin n → Fin c → Bool} : entryAt (rowsOf M) i j = true ↔
    ∃ (hi : i < n) (hj : j < c), M ⟨i, hi⟩ ⟨j, hj⟩ = true := by
  simp [entryAt_iff, rowsOf, List.getElem?_eq_some_iff]

/-! ## The matrix of the graph of a matrix -/

theorem matrix_ofMatrix_rowsOf (M : Fin n → Fin n → Bool) :
    (ofMatrix (rowsOf M)).matrix = rowsOf fun i j => M i j || M j i := by
  apply (square_matrix _).ext (square_rowsOf _) (by simp [Graph.order, Label.upTo])
  intro i j
  rw [Bool.eq_iff_iff, entryAt_matrix_of_nodes (nodes_ofMatrix _), adj_ofMatrix (square_rowsOf M)]
  simp only [entryAt_rowsOf, Bool.or_eq_true]
  constructor
  · rintro (⟨hi, hj, set⟩ | ⟨hj, hi, set⟩)
    · exact ⟨hi, hj, .inl set⟩
    · exact ⟨hi, hj, .inr set⟩
  · rintro ⟨hi, hj, set | set⟩
    · exact .inl ⟨hi, hj, set⟩
    · exact .inr ⟨hj, hi, set⟩

/-! ## Adding the entries one by one -/

/-- Known nodes can be joined one after the other as long as the graph is not frozen. -/
theorem addEdges_eq_ok (known : ∀ e ∈ pairs, e.1 ∈ g.nodes ∧ e.2 ∈ g.nodes)
    (thawed : g.frozen = false) : g.addEdges pairs = .ok (g.insertEdges pairs) := by
  induction pairs generalizing g with
  | nil => rfl
  | cons e rest ih =>
    obtain ⟨first, second⟩ := known e List.mem_cons_self
    have step : g.addEdge e.1 e.2 = .ok (g.insertEdge e.1 e.2) := by
      rw [addEdge_eq, if_pos ⟨first, second⟩, thawed]
      rfl
    rw [addEdges, step]
    apply ih
    · intro d hd
      rw [nodes_insertEdge first second]
      exact known d (List.mem_cons_of_mem _ hd)
    · rw [frozen_insertEdge, thawed]

/-- The nodes at the set entries of a matrix, row by row. -/
def setPairs (rows : List (List Bool)) : List (Label × Label) :=
  (List.range rows.length).flatMap fun i =>
    ((List.range rows.length).filter (entryAt rows i)).map fun j => (Label.ofNat i, Label.ofNat j)

theorem mem_setPairs (square : Square rows) : (u, v) ∈ setPairs rows ↔
    ∃ i j, u = Label.ofNat i ∧ v = Label.ofNat j ∧ entryAt rows i j = true := by
  simp only [setPairs, List.mem_flatMap, List.mem_range, List.mem_map, List.mem_filter,
    Prod.mk.injEq]
  constructor
  · rintro ⟨i, _, j, ⟨_, set⟩, rfl, rfl⟩
    exact ⟨i, j, rfl, rfl, set⟩
  · rintro ⟨i, j, rfl, rfl, set⟩
    obtain ⟨hi, hj⟩ := square.lt_of_entryAt set
    exact ⟨i, hi, j, ⟨hj, set⟩, rfl, rfl⟩

/-- An entry that is met on both sides of the diagonal is there the second time. -/
theorem addEdges_setPairs (square : Square rows) :
    ∃ grown, (empty rows.length).addEdges (setPairs rows) = .ok grown ∧
      grown.Same (ofMatrix rows) := by
  have known : ∀ e ∈ setPairs rows,
      e.1 ∈ (empty rows.length).nodes ∧ e.2 ∈ (empty rows.length).nodes := by
    rintro ⟨u, v⟩ he
    obtain ⟨i, j, rfl, rfl, set⟩ := (mem_setPairs square).mp he
    obtain ⟨hi, hj⟩ := square.lt_of_entryAt set
    exact ⟨Label.ofNat_mem_upTo.mpr hi, Label.ofNat_mem_upTo.mpr hj⟩
  refine ⟨_, addEdges_eq_ok known rfl, nodes_insertEdges known, fun u v => ?_⟩
  rw [adj_insertEdges_of_nil rfl, mem_setPairs square, mem_setPairs square]
  constructor
  · rintro (⟨i, j, rfl, rfl, set⟩ | ⟨i, j, rfl, rfl, set⟩)
    · exact (adj_ofMatrix square).mpr (.inl set)
    · exact (adj_ofMatrix square).mpr (.inr set)
  · intro adj
    obtain ⟨i, _, rfl⟩ := Label.mem_upTo.mp adj.left_mem
    obtain ⟨j, _, rfl⟩ := Label.mem_upTo.mp adj.right_mem
    rcases (adj_ofMatrix square).mp adj with set | set
    · exact .inl ⟨i, j, rfl, rfl, set⟩
    · exact .inr ⟨j, i, rfl, rfl, set⟩

/-! ## Matrices that are refused -/

theorem ofNested_rowsOf_error (M : Fin n → Fin c → Bool) (uneven : c ≠ n) (filled : 0 < n * c) :
    ofNested (.ofRows (rowsOf M)) = .error (.malformed (.matrixShape n [n, c])) := by
  have height : 0 < n := Nat.pos_of_mul_pos_right filled
  have width : 0 < c := Nat.pos_of_mul_pos_left filled
  have nonempty : rowsOf M ≠ [] := by
    rw [← List.length_pos_iff, length_rowsOf]
    exact height
  have shape := shape?_ofRows (width_rowsOf M) nonempty
  have count : ((rowsOf M).map fun row => Nested.list (row.map .entry)).length = n := by simp
  unfold Nested.ofRows at shape ⊢
  simp only [ofNested, shape, count, length_rowsOf]
  have entries : ¬ [n, c].contains 0 = true := by simp; omega
  have other : [n, c] ≠ [n, n] := by simpa using uneven
  rw [if_neg (by simp [depthLimit]), if_neg entries, if_neg other]

/-- **Matrices and graphs.** Every square matrix is read as a graph, and the matrix of this graph is
the disjunction of the first one with its transpose, so it is the first one again if that is
symmetric; adding the set entries as edges, one after the other, makes the same graph. The matrix of
a graph is read as the frozen graph that has the same edges between the places of the nodes. A matrix
with entries that is no square is refused for its shape. -/
theorem matrix_round_trip :
    (∀ (n : Nat) (M : Fin n → Fin n → Bool), ∃ g,
      ofNested (.ofRows (rowsOf M)) = .ok g ∧
      g.matrix = rowsOf (fun i j => M i j || M j i) ∧
      ((∀ i j, M i j = M j i) → g.matrix = rowsOf M) ∧
      ∃ grown, (empty n).addEdges (setPairs (rowsOf M)) = .ok grown ∧ grown.Same g) ∧
    (∀ g : Graph, ∃ h,
      ofNested (.ofRows g.matrix) = .ok h ∧ h.frozen = true ∧ g.Numbers h) ∧
    ∀ (n c : Nat) (M : Fin n → Fin c → Bool), c ≠ n → 0 < n * c →
      ofNested (.ofRows (rowsOf M)) = .error (.malformed (.matrixShape n [n, c])) := by
  refine ⟨fun n M => ?_, fun g => ?_, fun n c M => ofNested_rowsOf_error M⟩
  · have matrix := matrix_ofMatrix_rowsOf M
    have grown := addEdges_setPairs (square_rowsOf M)
    rw [length_rowsOf] at grown
    refine ⟨_, ofNested_ofRows (square_rowsOf M), matrix, fun symmetric => ?_, grown⟩
    rw [matrix]
    congr
    funext i j
    rw [symmetric j i, Bool.or_self]
  · exact ⟨_, ofNested_ofRows g.square_matrix, rfl, g.numbers_ofMatrix⟩

/-- A loop and an edge come back; the same matrix with a third column is refused. -/
theorem matrix_round_trip_loop :
    (∃ g, ofNested (.ofRows [[true, true], [true, false]]) = .ok g ∧
      g.matrix = [[true, true], [true, false]]) ∧
    ofNested (.ofRows [[true, true, true], [true, false, false]]) =
      .error (.malformed (.matrixShape 2 [2, 3])) := by
  obtain ⟨square, _, refused⟩ := matrix_round_trip
  obtain ⟨g, read, _, back, _⟩ := square 2 fun i j => i = 0 || j = 0
  refine ⟨⟨g, read, back (by decide)⟩, ?_⟩
  exact refused 2 3 (fun i j => i = 0 || j = 0) (by decide) (by decide)

end VertexCover.Graph
