import VertexCover.Label

/-! Labels of numbered nodes: the graphs that are built from formulas and matrices have the nodes
`0, …, n - 1` in this order. -/
namespace VertexCover.Label

/-- The label of a numbered node. -/
def ofNat (i : Nat) : Label := .int (i : Nat)

@[simp] theorem ofNat_inj {i j : Nat} : ofNat i = ofNat j ↔ i = j := by
  rw [ofNat, ofNat, Label.int.injEq]
  exact Int.ofNat_inj

theorem mem_upTo {n : Nat} {v : Label} : v ∈ upTo n ↔ ∃ i < n, v = ofNat i := by
  simp only [upTo, List.mem_map, List.mem_range, ofNat, eq_comm]

@[simp] theorem ofNat_mem_upTo {n i : Nat} : ofNat i ∈ upTo n ↔ i < n := by
  rw [mem_upTo]
  constructor
  · rintro ⟨j, hj, same⟩
    rwa [ofNat_inj.mp same]
  · exact fun hi => ⟨i, hi, rfl⟩

theorem getElem?_upTo {n i : Nat} {v : Label} :
    (upTo n)[i]? = some v ↔ i < n ∧ v = ofNat i := by
  simp only [upTo, List.getElem?_map, List.getElem?_eq_some_iff, List.getElem_range,
    List.length_range, Option.map_eq_some_iff, ofNat]
  grind

end VertexCover.Label
