import VertexCover.Graph.Matrix
import VertexCover.Proofs.Cover
import VertexCover.Proofs.Label

/-!
# Graphs and their matrices

* `adj_ofMatrix`: the edges of the graph of a matrix are its entries, on either side;
* `ofNested_ofRows`: a square is never refused;
* `Numbers`: a graph with its nodes numbered in their order; the matrix of a graph gives such a graph
  (`numbers_ofMatrix`), and numbering does not change the matrix (`Numbers.matrix_eq`).
-/

namespace VertexCover

theorem mem_upper {α : Type} {xs : List α} {a b : α} :
    (a, b) ∈ upper xs ↔ ∃ i j : Nat, i ≤ j ∧ xs[i]? = some a ∧ xs[j]? = some b := by
  induction xs with
  | nil => simp [upper]
  | cons x xs ih =>
    rw [upper, List.mem_cons, List.mem_append, List.mem_map, ih]
    constructor
    · rintro (same | ⟨y, hy, same⟩ | ⟨i, j, le, ha, hb⟩)
      · cases same
        exact ⟨0, 0, Nat.le_refl 0, rfl, rfl⟩
      · cases same
        obtain ⟨j, hj⟩ := List.mem_iff_getElem?.mp hy
        exact ⟨0, j + 1, Nat.zero_le _, rfl, hj⟩
      · exact ⟨i + 1, j + 1, Nat.succ_le_succ le, ha, hb⟩
    · rintro ⟨i, j, le, ha, hb⟩
      cases i with
      | zero =>
        cases ha
        cases j with
        | zero => cases hb; exact .inl rfl
        | succ j => exact .inr (.inl ⟨b, List.mem_of_getElem? hb, rfl⟩)
      | succ i =>
        cases j with
        | zero => omega
        | succ j => exact .inr (.inr ⟨i, j, by omega, ha, hb⟩)

namespace Graph

variable {g h : Graph} {rows others : List (List Bool)} {i j : Nat}

/-- The matrix has as many columns as rows. -/
def Square (rows : List (List Bool)) : Prop := ∀ row ∈ rows, row.length = rows.length

theorem entryAt_iff :
    entryAt rows i j = true ↔ ∃ row, rows[i]? = some row ∧ row[j]? = some true := by
  unfold entryAt
  cases rows[i]? with
  | none => simp
  | some row => cases h : row[j]? <;> simp [h]

theorem entryAt_eq_getElem (hi : i < rows.length) (hj : j < rows[i].length) :
    entryAt rows i j = rows[i][j] := by
  simp [entryAt, List.getElem?_eq_getElem hi, List.getElem?_eq_getElem hj]

theorem Square.lt_of_entryAt (square : Square rows) (set : entryAt rows i j = true) :
    i < rows.length ∧ j < rows.length := by
  obtain ⟨row, hi, hj⟩ := entryAt_iff.mp set
  obtain ⟨inside, _⟩ := List.getElem?_eq_some_iff.mp hj
  have listed := List.mem_of_getElem? hi
  exact ⟨(List.getElem?_eq_some_iff.mp hi).1, square row listed ▸ inside⟩

/-- Squares of one size are equal if their entries are. -/
theorem Square.ext (square : Square rows) (square' : Square others)
    (length : rows.length = others.length) (same : ∀ i j, entryAt rows i j = entryAt others i j) :
    rows = others := by
  apply List.ext_getElem length
  intro i hi hi'
  have width := square rows[i] (List.getElem_mem hi)
  have width' := square' others[i] (List.getElem_mem hi')
  apply List.ext_getElem (by omega)
  intro j hj hj'
  rw [← entryAt_eq_getElem hi hj, ← entryAt_eq_getElem hi' hj', same]

/-! ## The graph of a matrix -/

theorem mem_setEntries : (i, j) ∈ setEntries rows ↔
    i ≤ j ∧ j < rows.length ∧ (entryAt rows i j = true ∨ entryAt rows j i = true) := by
  have listed : (i, j) ∈ upper (List.range rows.length) ↔ i ≤ j ∧ j < rows.length := by
    simp only [mem_upper, List.getElem?_eq_some_iff, List.length_range, List.getElem_range]
    constructor
    · rintro ⟨_, _, le, ⟨_, rfl⟩, inside, rfl⟩
      exact ⟨le, inside⟩
    · rintro ⟨le, inside⟩
      exact ⟨i, j, le, ⟨by omega, rfl⟩, inside, rfl⟩
  simp only [setEntries, List.mem_filter, listed, Bool.or_eq_true, and_assoc]

@[simp] theorem nodes_ofMatrix (rows : List (List Bool)) :
    (ofMatrix rows).nodes = Label.upTo rows.length := rfl

@[simp] theorem frozen_ofMatrix (rows : List (List Bool)) : (ofMatrix rows).frozen = true := rfl

theorem adj_ofMatrix (square : Square rows) : (ofMatrix rows).Adj (.ofNat i) (.ofNat j) ↔
    entryAt rows i j = true ∨ entryAt rows j i = true := by
  have listed {i j : Nat} : (Label.ofNat i, Label.ofNat j) ∈ (ofMatrix rows).edges ↔
      (i, j) ∈ setEntries rows := by
    change _ ∈ (setEntries rows).map _ ↔ _
    rw [List.mem_map]
    constructor
    · rintro ⟨⟨a, b⟩, he, same⟩
      injection same with first second
      rwa [← Label.ofNat_inj.mp first, ← Label.ofNat_inj.mp second]
    · exact fun he => ⟨(i, j), he, rfl⟩
  rw [adj_iff, listed, listed, mem_setEntries, mem_setEntries]
  constructor
  · rintro (⟨_, _, set⟩ | ⟨_, _, set⟩)
    · exact set
    · exact set.symm
  · intro set
    have inside : i < rows.length ∧ j < rows.length := by
      rcases set with set | set
      · exact square.lt_of_entryAt set
      · exact (square.lt_of_entryAt set).symm
    rcases Nat.le_total i j with le | le
    · exact .inl ⟨le, inside.2, set⟩
    · exact .inr ⟨le, inside.1, set.symm⟩

theorem shape?_row (row : List Bool) :
    Nested.shape? (.list (row.map .entry)) = some [row.length] := by
  have shapes : Nested.shapes? (row.map .entry) = some (row.map fun _ => []) := by
    induction row with
    | nil => rfl
    | cons b row ih => simp [Nested.shapes?, Nested.shape?, ih]
  cases row with
  | nil => rfl
  | cons b row =>
    rw [Nested.shape?, shapes]
    simp

theorem shape?_ofRows {c : Nat} (width : ∀ row ∈ rows, row.length = c) (nonempty : rows ≠ []) :
    (Nested.ofRows rows).shape? = some [rows.length, c] := by
  have shapes : Nested.shapes? (rows.map fun row => .list (row.map .entry)) =
      some (rows.map fun row => [row.length]) := by
    clear width nonempty
    induction rows with
    | nil => rfl
    | cons row rows ih => simp [Nested.shapes?, shape?_row, ih]
  have widths : rows.map (fun row => [row.length]) = rows.map fun _ => [c] :=
    List.map_congr_left fun row hr => by rw [width row hr]
  rw [Nested.ofRows, Nested.shape?, shapes, widths]
  cases rows with
  | nil => exact absurd rfl nonempty
  | cons row rows => simp

theorem rows_ofRows (rows : List (List Bool)) : (Nested.ofRows rows).rows = rows := by
  simp [Nested.ofRows, Nested.rows, Nested.items, Nested.value, Function.comp_def]

/-- A square is never refused. -/
theorem ofNested_ofRows (square : Square rows) :
    ofNested (Nested.ofRows rows) = .ok (ofMatrix rows) := by
  cases rows with
  | nil => rfl
  | cons row rows =>
    have shape := shape?_ofRows square (by simp)
    have back := rows_ofRows (row :: rows)
    unfold Nested.ofRows at shape back ⊢
    simp only [ofNested, shape, back]
    simp [depthLimit]

/-! ## The matrix of a graph -/

theorem entryAt_matrix : entryAt g.matrix i j = true ↔
    ∃ u v, g.nodes[i]? = some u ∧ g.nodes[j]? = some v ∧ g.Adj u v := by
  rw [entryAt_iff, matrix]
  simp only [List.getElem?_map, Option.map_eq_some_iff]
  constructor
  · rintro ⟨_, ⟨u, hu, rfl⟩, hj⟩
    rw [List.getElem?_map, Option.map_eq_some_iff] at hj
    obtain ⟨v, hv, set⟩ := hj
    exact ⟨u, v, hu, hv, mem_neighbours.mp (List.contains_iff_mem.mp set)⟩
  · rintro ⟨u, v, hu, hv, adj⟩
    refine ⟨_, ⟨u, hu, rfl⟩, ?_⟩
    rw [List.getElem?_map, hv, Option.map_some,
      List.contains_iff_mem.mpr (mem_neighbours.mpr adj)]

/-- Where the nodes are numbered, the entries are the edges between the numbers. -/
theorem entryAt_matrix_of_nodes {n : Nat} (nodes : g.nodes = Label.upTo n) :
    entryAt g.matrix i j = true ↔ g.Adj (.ofNat i) (.ofNat j) := by
  rw [entryAt_matrix, nodes]
  constructor
  · rintro ⟨u, v, hu, hv, adj⟩
    rwa [(Label.getElem?_upTo.mp hu).2, (Label.getElem?_upTo.mp hv).2] at adj
  · intro adj
    have left := adj.left_mem
    have right := adj.right_mem
    rw [nodes, Label.ofNat_mem_upTo] at left right
    exact ⟨_, _, Label.getElem?_upTo.mpr ⟨left, rfl⟩, Label.getElem?_upTo.mpr ⟨right, rfl⟩, adj⟩

@[simp] theorem length_matrix (g : Graph) : g.matrix.length = g.order := by
  simp [matrix, order]

theorem square_matrix (g : Graph) : Square g.matrix := by
  intro row hr
  obtain ⟨u, _, rfl⟩ := List.mem_map.mp hr
  simp [matrix]

/-- The second graph is the first one with its nodes numbered in their order. -/
structure Numbers (g h : Graph) : Prop where
  nodes : h.nodes = Label.upTo g.order
  adj : ∀ i j, h.Adj (.ofNat i) (.ofNat j) ↔
    ∃ u v, g.nodes[i]? = some u ∧ g.nodes[j]? = some v ∧ g.Adj u v

theorem numbers_ofMatrix (g : Graph) : g.Numbers (ofMatrix g.matrix) where
  nodes := by simp
  adj := by
    intro i j
    rw [adj_ofMatrix g.square_matrix, ← entryAt_matrix]
    constructor
    · rintro (set | set)
      · exact set
      · obtain ⟨u, v, hu, hv, adj⟩ := entryAt_matrix.mp set
        exact entryAt_matrix.mpr ⟨v, u, hv, hu, adj.symm⟩
    · exact .inl

theorem Numbers.order_eq (numbers : g.Numbers h) : h.order = g.order := by
  simp [Graph.order, numbers.nodes, Label.upTo]

/-- Numbering the nodes does not change the matrix. -/
theorem Numbers.matrix_eq (numbers : g.Numbers h) : h.matrix = g.matrix := by
  apply h.square_matrix.ext g.square_matrix (by rw [length_matrix, length_matrix, numbers.order_eq])
  intro i j
  rw [Bool.eq_iff_iff, entryAt_matrix_of_nodes numbers.nodes, numbers.adj, entryAt_matrix]

end Graph

end VertexCover
