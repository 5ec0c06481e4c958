import VertexCover.Batch.Table

/-!
# The cells of a table

A table shows under the name of a column what the row has there, or the number as a double where the
column is kept in doubles.
-/

namespace VertexCover

/-- What a row has in the column with the given name. -/
def Row.entry (name : String) (row : Row) : Cell := (row.lookup name).getD .missing

namespace Table

variable {rows : List Row} {row : Row} {name : String} {i : Nat}

/-- The cell of a row in the column with the given name. -/
def cell (t : Table) (i : Nat) (name : String) : Option Cell :=
  t.rows[i]?.bind fun cells => (t.columns.zip cells).lookup name

theorem lookup_zip_map (f : String → Cell) {names : List String} (h : name ∈ names) :
    (names.zip (names.map f)).lookup name = some (f name) := by
  induction names with
  | nil => cases h
  | cons other names ih =>
    rw [List.map_cons, List.zip_cons_cons, List.lookup_cons]
    by_cases same : name = other
    · simp [same]
    · have passed : (name == other) = false := by simpa using same
      simp only [passed, ih ((List.mem_cons.mp h).resolve_left same)]

theorem mem_columns : name ∈ (ofRows rows).columns ↔ ∃ row ∈ rows, name ∈ row.map Prod.fst := by
  simp [ofRows]

/-- A cell is what the row has there, widened if the column is. -/
theorem cell_ofRows (h : rows[i]? = some row) (listed : name ∈ (ofRows rows).columns) :
    (ofRows rows).cell i name = some
      (if isWide (rows.map (Row.entry name)) then (row.entry name).widen else row.entry name) := by
  have cells : (ofRows rows).rows[i]? = some ((ofRows rows).columns.map fun other =>
      if ((ofRows rows).columns.filter fun column =>
          isWide (rows.map (Row.entry column))).contains other
        then (row.entry other).widen else row.entry other) := by
    simp only [ofRows, List.getElem?_map, h]
    rfl
  have wide : name ∈ ((ofRows rows).columns.filter fun column =>
      isWide (rows.map (Row.entry column))) ↔ isWide (rows.map (Row.entry name)) = true := by
    rw [List.mem_filter]
    exact and_iff_right listed
  rw [cell, cells, Option.bind_some, lookup_zip_map _ listed]
  simp only [List.contains_iff_mem, wide]

section
variable {c : Cell} (h : rows[i]? = some row) (found : row.lookup name = some c)
include h found

theorem cell_of_found : (ofRows rows).cell i name = some
    (if isWide (rows.map (Row.entry name)) then c.widen else c) := by
  obtain ⟨before, after, split, _⟩ := List.lookup_eq_some_iff.mp found
  have listed : name ∈ (ofRows rows).columns :=
    mem_columns.mpr ⟨row, List.mem_of_getElem? h, by simp [split]⟩
  have entry : row.entry name = c := by simp [Row.entry, found]
  rw [cell_ofRows h listed, entry]

theorem cell_of_plain (plain : c.widen = c) : (ofRows rows).cell i name = some c := by
  rw [cell_of_found h found, plain, ite_self]

/-- A column without a missing cell keeps its integers. -/
theorem cell_of_full (full : ∀ other ∈ rows, other.entry name ≠ .missing) :
    (ofRows rows).cell i name = some c := by
  have narrow : isWide (rows.map (Row.entry name)) = false := by
    rw [isWide, Bool.and_eq_false_iff]
    left
    rw [Bool.eq_false_iff, Ne, List.contains_iff_mem]
    intro gap
    obtain ⟨other, ho, missing⟩ := List.mem_map.mp gap
    exact full other ho missing
  rw [cell_of_found h found, narrow]
  rfl

end

theorem cell_of_absent (h : rows[i]? = some row) (listed : name ∈ (ofRows rows).columns)
    (absent : row.lookup name = none) : (ofRows rows).cell i name = some .missing := by
  have entry : row.entry name = .missing := by simp [Row.entry, absent]
  rw [cell_ofRows h listed, entry]
  split <;> rfl

end Table

end VertexCover
