import VertexCover.LinearModel
import VertexCover.Proofs.Cover
import VertexCover.Proofs.HittingSet

/-!
# The covering program of a graph

The constraints are read as sums of 0/1 variables that have to reach one, and the objective as the
sum of all variables. The points of the program of a graph are then its vertex covers, so the answer
of a solver is a smallest one, whatever the solver does to find it.

* `Model.Satisfies`, `Model.IsOptimal`: points of a program and its optima;
* `Solver.IsExact`: what is asked of a solver; `minimise_isExact`: one that keeps it;
* `satisfies_model_iff`: the points of the program of a graph;
* `isMinimumCover_baseline`: the cover read off an optimum.
-/

namespace VertexCover
open Search

namespace Model

/-- The sum of the listed variables. -/
def total (values : List Bool) (vars : List Nat) : Nat :=
  (vars.map fun i => (flag values i).toNat).sum

/-- The sum of all variables. -/
def objective (values : List Bool) : Nat := (values.map Bool.toNat).sum

/-- There is a value for every variable, and the variables of every constraint add up to at least
one. -/
def Satisfies (m : Model) (values : List Bool) : Prop :=
  values.length = m.size ∧ ∀ c ∈ m.constraints, 1 ≤ total values c

/-- The values satisfy the constraints with the smallest sum. -/
structure IsOptimal (m : Model) (values : List Bool) : Prop where
  satisfies : m.Satisfies values
  least : ∀ others, m.Satisfies others → objective values ≤ objective others

/-- The constraints are about variables of the model. -/
def Proper (m : Model) : Prop := ∀ c ∈ m.constraints, ∀ i ∈ c, i < m.size

end Model

/-- The solver gives an optimum of every program that has a point. -/
def Solver.IsExact (solver : Solver) : Prop :=
  ∀ m : Model, m.Proper → (∃ values, m.Satisfies values) → m.IsOptimal (solver m).values

namespace Model

variable {m : Model} {values : List Bool} {vars : List Nat}

theorem one_le_total_iff : 1 ≤ total values vars ↔ ∃ i ∈ vars, flag values i = true := by
  have set (b : Bool) : 0 < b.toNat ↔ b = true := by cases b <;> simp
  rw [total, Nat.one_le_iff_ne_zero, ← Nat.pos_iff_ne_zero, List.sum_pos_iff_exists_pos_nat]
  simp [set]

theorem objective_eq_count (values : List Bool) : objective values = count values := by
  unfold objective count
  induction values with
  | nil => rfl
  | cons value values ih =>
    rw [List.map_cons, List.sum_cons, ih, List.countP_cons, Nat.add_comm]
    cases value <;> rfl

/-- The check of a point is the same test. -/
theorem feasible_iff : m.feasible values = true ↔ m.Satisfies values := by
  simp only [feasible, Satisfies, one_le_total_iff, Bool.and_eq_true, beq_iff_eq, List.all_eq_true,
    List.any_eq_true]
  rfl

/-- **The solver at hand is exact.** -/
theorem minimise_isExact : Solver.IsExact minimise := by
  intro m proper solvable
  -- The positions of the ones of a point meet all constraints, and are as many as its objective.
  have meets {values : List Bool} (point : m.Satisfies values) :
      ∃ ones, HittingSet.Meets ones m.constraints ∧ ones.length = objective values := by
    refine ⟨(List.range values.length).filter (flag values), ?_, ?_⟩
    · intro c hc
      obtain ⟨i, member, set⟩ := one_le_total_iff.mp (point.2 c hc)
      exact ⟨i, member, by simp [set, lt_length_of_flag set]⟩
    · rw [objective_eq_count, count_eq]
  obtain ⟨values, point⟩ := solvable
  obtain ⟨ones, met, _⟩ := meets point
  obtain ⟨found, answer, hits, least⟩ := HittingSet.smallest?_meets proper met
  have listed : (minimise m).values = (List.range m.size).map (found.contains ·) := by
    simp [minimise, answer]
  rw [listed]
  refine ⟨⟨by simp, ?_⟩, ?_⟩
  · intro c hc
    obtain ⟨i, member, hit⟩ := hits c hc
    exact one_le_total_iff.mpr ⟨i, member, by simp [flag, proper c hc i member, hit]⟩
  · intro others point
    obtain ⟨ones, met, length⟩ := meets point
    have fewer : objective ((List.range m.size).map (found.contains ·)) ≤ found.length := by
      rw [objective_eq_count, count, List.countP_map, List.countP_eq_length_filter]
      refine (List.subperm_of_subset (List.nodup_range.filter _) ?_).length_le
      intro i hi
      simpa using (List.mem_filter.mp hi).2
    rw [← length]
    exact Nat.le_trans fewer (least ones met)

end Model

namespace Graph

variable {g : Graph} {values : List Bool} {u v : Label}

theorem getElem?_idxOf (h : v ∈ g.nodes) : g.nodes[g.nodes.idxOf v]? = some v := by
  rw [List.getElem?_eq_getElem (List.idxOf_lt_length_of_mem h), List.getElem_idxOf]

theorem proper_model (g : Graph) : g.model.Proper := by
  intro c hc i hi
  obtain ⟨⟨u, v⟩, listed, rfl⟩ := List.mem_map.mp hc
  obtain ⟨hu, hv⟩ := g.ends _ listed
  have place {w : Label} (hw : w ∈ g.nodes) : g.nodes.idxOf w < g.order :=
    List.idxOf_lt_length_of_mem hw
  dsimp only at hi
  split at hi
  · cases List.mem_singleton.mp hi
    exact place hu
  · simp only [List.mem_cons, List.not_mem_nil, or_false] at hi
    rcases hi with rfl | rfl
    · exact place hu
    · exact place hv

/-- The constraint of an edge asks for one of its ends. -/
theorem one_le_total_edge (h : (u, v) ∈ g.edges) :
    1 ≤ Model.total values
        (if u = v then [g.nodes.idxOf u] else [g.nodes.idxOf u, g.nodes.idxOf v]) ↔
      u ∈ g.select values ∨ v ∈ g.select values := by
  obtain ⟨hu, hv⟩ := g.ends _ h
  rw [Model.one_le_total_iff, mem_select_of_getElem? (getElem?_idxOf hu),
    mem_select_of_getElem? (getElem?_idxOf hv)]
  split
  · rename_i loop
    cases loop
    simp
  · simp

/-- **The points of the program of a graph are its vertex covers.** -/
theorem satisfies_model_iff : g.model.Satisfies values ↔
    values.length = g.order ∧ g.IsVertexCover (g.select values) := by
  have edges : (∀ c ∈ g.model.constraints, 1 ≤ Model.total values c) ↔
      ∀ u v, (u, v) ∈ g.edges → u ∈ g.select values ∨ v ∈ g.select values := by
    simp only [model, List.forall_mem_map, Prod.forall]
    exact forall₂_congr fun u v => forall_congr' fun h => one_le_total_edge h
  rw [Model.Satisfies, edges]
  refine and_congr_right fun _ => ⟨fun met => ?_, fun cover u v h => ?_⟩
  · refine ⟨g.nodup.sublist (g.select_sublist values),
      fun v hv => (g.select_sublist values).subset hv, ?_⟩
    intro u v adj
    rcases adj_iff.mp adj with listed | listed
    · exact met u v listed
    · exact (met v u listed).symm
  · exact cover.meets u v (adj_iff.mpr (.inl h))

theorem satisfies_vector {members : List Label} (cover : g.IsVertexCover members) :
    g.model.Satisfies (g.vector members) :=
  satisfies_model_iff.mpr ⟨by simp [vector, order], isVertexCover_select (covers_vector cover)⟩

/-- **The baseline is a smallest cover.** -/
theorem isMinimumCover_baseline {solver : Solver} (exact : solver.IsExact) (g : Graph) :
    g.IsMinimumCover (g.baseline solver).members := by
  unfold baseline
  split
  · rename_i none
    refine ⟨⟨.nil, by simp, ?_⟩, fun others _ => Nat.zero_le _⟩
    intro u v adj
    rw [adj_iff, List.isEmpty_iff.mp none] at adj
    simp at adj
  · have all : g.IsVertexCover g.nodes := ⟨g.nodup, fun _ => id, fun _ _ adj => .inl adj.left_mem⟩
    obtain ⟨point, least⟩ := exact g.model g.proper_model ⟨_, satisfies_vector all⟩
    obtain ⟨length, cover⟩ := satisfies_model_iff.mp point
    refine ⟨cover, fun others h => ?_⟩
    have size := least _ (satisfies_vector h)
    rwa [Model.objective_eq_count, Model.objective_eq_count, count_vector h.nodup h.nodes,
      ← length_select length] at size

end Graph

end VertexCover
