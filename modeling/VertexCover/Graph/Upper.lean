import VertexCover.Graph.Basic

/-! Graphs given by their upper triangle.

If every edge is listed from the earlier to the later of its ends, and the edges stand in the order of
the triangle, then no edge is listed twice. -/
namespace VertexCover

/-- Every item paired with itself and with the items after it, row by row. -/
def upper {α : Type} : List α → List (α × α)
  | [] => []
  | x :: xs => (x, x) :: (xs.map (x, ·) ++ upper xs)

/-- The pairs of an earlier and a later item of a list. -/
def pairs {α : Type} : List α → List (α × α)
  | [] => []
  | x :: xs => xs.map (x, ·) ++ pairs xs

theorem pairs_sublist_upper {α : Type} (xs : List α) : (pairs xs).Sublist (upper xs) := by
  induction xs with
  | nil => exact .slnil
  | cons x xs ih => exact .cons _ (.append (.refl _) ih)

theorem upper_map {α β : Type} (f : α → β) (xs : List α) :
    upper (xs.map f) = (upper xs).map fun e => (f e.1, f e.2) := by
  induction xs with
  | nil => rfl
  | cons x xs ih => simp [upper, ih, Function.comp_def]

theorem mem_of_mem_upper {α : Type} {xs : List α} {e : α × α} (h : e ∈ upper xs) :
    e.1 ∈ xs ∧ e.2 ∈ xs := by
  induction xs with
  | nil => cases h
  | cons x xs ih =>
    rw [upper, List.mem_cons, List.mem_append, List.mem_map] at h
    rcases h with rfl | ⟨y, hy, rfl⟩ | h
    · simp
    · simp [hy]
    · have := ih h
      simp [this.1, this.2]

theorem joins_eq_false {u v a b : Label} (ha : u ≠ a) (hb : u ≠ b) : joins (u, v) a b = false := by
  simp [joins, ha, hb]

/-- Among different nodes no pair of the triangle repeats another, in either direction. -/
theorem upper_once {nodes : List Label} (nodup : nodes.Nodup) :
    (upper nodes).Pairwise fun e f => joins e f.1 f.2 = false := by
  induction nodes with
  | nil => exact .nil
  | cons u rest ih =>
    obtain ⟨fresh, nodup⟩ := List.nodup_cons.1 nodup
    have other {v : Label} (hv : v ∈ rest) : u ≠ v := fun same => fresh (same ▸ hv)
    have later {v : Label} {f : Label × Label} (hf : f ∈ upper rest) :
        joins (u, v) f.1 f.2 = false :=
      joins_eq_false (other (mem_of_mem_upper hf).1) (other (mem_of_mem_upper hf).2)
    rw [upper, List.pairwise_cons, List.pairwise_append]
    refine ⟨fun f hf => ?_, ?_, ih nodup, fun e he f hf => ?_⟩
    · rcases List.mem_append.1 hf with hf | hf
      · obtain ⟨v, hv, rfl⟩ := List.mem_map.1 hf
        simp [joins, other hv]
      · exact later hf
    · rw [List.pairwise_map]
      refine (List.Pairwise.and_mem.1 nodup).imp fun h => ?_
      simp [joins, h.2.2, other h.2.1]
    · obtain ⟨v, hv, rfl⟩ := List.mem_map.1 he
      exact later hf

/-- The graph with the given nodes and edges out of their upper triangle. -/
def Graph.ofUpper (nodes : List Label) (nodup : nodes.Nodup) (edges : List (Label × Label))
    (sub : edges.Sublist (upper nodes)) : Graph where
  nodes
  edges
  frozen := false
  nodup
  ends := fun _ he => mem_of_mem_upper (sub.subset he)
  once := (upper_once nodup).sublist sub

end VertexCover
