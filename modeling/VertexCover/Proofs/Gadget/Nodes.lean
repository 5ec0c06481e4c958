import VertexCover.Proofs.Gadget.Shape
import VertexCover.Proofs.Graph.Degree

/-!
# The gadget graph node by node

Nodes `2i` and `2i + 1` carry the two literals of a variable, and node `2n + 3k + p` carries the
literal at place `p` of clause `k`. A variable node has an edge to its partner and one to every
place of its literal; a place has edges to the two other places of its clause and to the variable
node of its literal. The degrees add up to twice the number of edges, so no two of the listed edges
are the same.

* `literalsUpTo`: the literals in the order of their nodes;
* `getElem?_gadgetNodes_node`, `getElem?_gadgetNodes_place`: what the nodes carry;
* `adj_node`, `adj_place`: the neighbours of a variable node and of a place;
* `degree_node`, `degree_place`, `edgeCount_gadgetGraph`: how many they are;
* `gadgetGraph_shape`: all of this together.
-/

namespace VertexCover

/-- An entry of a list that is made of blocks of one length. -/
theorem getElem?_flatMap_block {α β : Type} {f : α → List β} {b p : Nat}
    (block : ∀ x, (f x).length = b) (xs : List α) (k : Nat) (hp : p < b) :
    (xs.flatMap f)[b * k + p]? = xs[k]?.bind fun x => (f x)[p]? := by
  induction xs generalizing k with
  | nil => rfl
  | cons x xs ih =>
    rw [List.flatMap_cons]
    cases k with
    | zero =>
      have inside : b * 0 + p < (f x).length := by rw [block]; omega
      rw [List.getElem?_append_left inside, Nat.mul_zero, Nat.zero_add]
      rfl
    | succ k =>
      have outside : (f x).length ≤ b * (k + 1) + p := by rw [block, Nat.mul_succ]; omega
      have later : b * (k + 1) + p - (f x).length = b * k + p := by rw [block, Nat.mul_succ]; omega
      rw [List.getElem?_append_right outside, later, ih k]
      rfl

/-! ## The nodes of literals -/

namespace Literal

variable {l d : Literal} {n : Nat}

/-- The node of the opposite literal is the other one of its pair. -/
theorem negate_node_iff {j : Nat} (h : l.var ≤ n) : j = l.negate.node ↔
    (∃ v < n, l.node = 2 * v ∧ j = 2 * v + 1) ∨ ∃ v < n, j = 2 * v ∧ l.node = 2 * v + 1 := by
  have hl := l.var_pos
  constructor
  · rintro rfl
    cases positive : l.positive with
    | true => exact .inl ⟨l.var - 1, by omega, by simp [node, negate, positive]⟩
    | false => exact .inr ⟨l.var - 1, by omega, by simp [node, negate, positive]⟩
  · have own : l.node = 2 * (l.var - 1) + if l.positive then 0 else 1 := rfl
    have other : l.negate.node = 2 * (l.var - 1) + if !l.positive then 0 else 1 := rfl
    rintro (⟨v, _, mine, rfl⟩ | ⟨v, _, rfl, mine⟩) <;> cases positive : l.positive <;>
      simp [positive] at own other <;> omega

theorem mod_node (l : Literal) : l.node % 2 = if l.positive then 0 else 1 := by
  unfold node
  split <;> omega

theorem node_inj : l.node = d.node ↔ l = d := by
  constructor
  · intro same
    have sign : l.positive = d.positive := by
      have parity := l.mod_node
      rw [same, d.mod_node] at parity
      cases hl : l.positive <;> cases hd : d.positive <;> simp [hl, hd] at parity ⊢
    have number : l.var = d.var := by
      have hl := l.var_pos
      have hd := d.var_pos
      unfold node at same
      rw [sign] at same
      omega
    cases l
    cases d
    cases sign
    cases number
    rfl
  · exact congrArg node

end Literal

/-- The literals of the variables `1, …, n`, in the order of their nodes. -/
def literalsUpTo (n : Nat) : List Literal := (List.range n).flatMap literalsAt

theorem map_node_literalsUpTo (n : Nat) :
    (literalsUpTo n).map Literal.node = List.range (2 * n) := by
  induction n with
  | zero => rfl
  | succ n ih =>
    have pair : (literalsAt n).map Literal.node = [2 * n, 2 * n + 1] := by
      simp [literalsAt, Literal.node]
    rw [literalsUpTo] at ih ⊢
    rw [List.range_succ, List.flatMap_append, List.map_append, ih, List.flatMap_singleton, pair,
      Nat.mul_succ, List.range_succ, List.range_succ, List.append_assoc]
    rfl

theorem length_literalsUpTo (n : Nat) : (literalsUpTo n).length = 2 * n := by
  rw [← List.length_map Literal.node, map_node_literalsUpTo, List.length_range]

theorem literalsUpTo_nodup (n : Nat) : (literalsUpTo n).Nodup := by
  apply List.Nodup.of_map Literal.node
  rw [map_node_literalsUpTo]
  exact List.nodup_range

theorem getElem?_literalsUpTo {l : Literal} {n : Nat} (h : l.var ≤ n) :
    (literalsUpTo n)[l.node]? = some l := by
  have node : ((literalsUpTo n).map Literal.node)[l.node]? = some l.node := by
    rw [map_node_literalsUpTo, List.getElem?_range (Literal.node_lt_iff.mpr h)]
  rw [List.getElem?_map, Option.map_eq_some_iff] at node
  obtain ⟨d, found, same⟩ := node
  rw [found, Literal.node_inj.mp same]

theorem mem_literalsUpTo {l : Literal} {n : Nat} : l ∈ literalsUpTo n ↔ l.var ≤ n := by
  constructor
  · intro listed
    have node := List.mem_map_of_mem (f := Literal.node) listed
    rw [map_node_literalsUpTo, List.mem_range] at node
    exact Literal.node_lt_iff.mp node
  · exact fun h => List.mem_of_getElem? (getElem?_literalsUpTo h)

theorem Clause.length_literals (c : Clause) : c.literals.length = 3 := rfl

namespace Formula
open VertexCover.Graph

variable {f : Formula} {l : Literal} {c : Clause} {k p : Nat} {u : Label}

/-! ## What the nodes carry -/

/-- The nodes of the variables. -/
def literalNodes (f : Formula) : List GadgetNode := (literalsUpTo f.varCount).map (⟨·, none⟩)

/-- The nodes of the places, clause by clause. -/
def placeNodes (f : Formula) : List GadgetNode :=
  f.clauses.zipIdx.flatMap fun (c, k) => c.literals.zipIdx.map fun (l, p) => ⟨l, some (k, p)⟩

theorem gadgetNodes_eq (f : Formula) : f.gadgetNodes = f.literalNodes ++ f.placeNodes := by
  rw [literalNodes, literalsUpTo, List.map_flatMap]
  rfl

theorem length_literalNodes (f : Formula) : f.literalNodes.length = 2 * f.varCount := by
  rw [literalNodes, List.length_map, length_literalsUpTo]

theorem length_placeNodes (f : Formula) : f.placeNodes.length = 3 * f.size := by
  simp [placeNodes, size, List.length_flatMap, Clause.literals, Nat.mul_comm]

theorem length_gadgetNodes (f : Formula) :
    f.gadgetNodes.length = 2 * f.varCount + 3 * f.size := by
  rw [gadgetNodes_eq, List.length_append, length_literalNodes, length_placeNodes]

theorem getElem?_gadgetNodes_node (h : l.var ≤ f.varCount) :
    f.gadgetNodes[l.node]? = some ⟨l, none⟩ := by
  have inside : l.node < f.literalNodes.length := by
    rw [length_literalNodes]
    exact Literal.node_lt_iff.mpr h
  rw [gadgetNodes_eq, List.getElem?_append_left inside, literalNodes, List.getElem?_map,
    getElem?_literalsUpTo h]
  rfl

/-- The places are numbered in the order of the literals. -/
theorem getElem?_literals (hc : f.clauses[k]? = some c) (hp : p < 3) :
    f.literals[3 * k + p]? = c.literals[p]? := by
  rw [literals, getElem?_flatMap_block Clause.length_literals f.clauses k hp, hc]
  rfl

theorem lt_of_getElem?_literals {q : Nat} (hl : f.literals[q]? = some l) : q < 3 * f.size := by
  rw [← length_literals]
  exact (List.getElem?_eq_some_iff.mp hl).1

theorem getElem?_placeNodes (f : Formula) (q : Nat) :
    f.placeNodes[q]? = f.literals[q]?.map fun l => ⟨l, some (q / 3, q % 3)⟩ := by
  have hp : q % 3 < 3 := Nat.mod_lt q (by omega)
  have blocks : f.placeNodes[3 * (q / 3) + q % 3]? =
      f.literals[3 * (q / 3) + q % 3]?.map fun l => ⟨l, some (q / 3, q % 3)⟩ := by
    rw [placeNodes, literals, getElem?_flatMap_block (by simp [Clause.literals]) _ _ hp,
      getElem?_flatMap_block Clause.length_literals _ _ hp, List.getElem?_zipIdx]
    cases f.clauses[q / 3]? with
    | none => rfl
    | some c => simp [List.getElem?_zipIdx, Function.comp_def]
  rwa [Nat.div_add_mod] at blocks

/-- A node after those of the variables carries the literal that stands there in the formula. -/
theorem getElem?_gadgetNodes_place (f : Formula) (q : Nat) :
    f.gadgetNodes[2 * f.varCount + q]? =
      f.literals[q]?.map fun l => ⟨l, some (q / 3, q % 3)⟩ := by
  have before := f.length_literalNodes
  rw [gadgetNodes_eq, List.getElem?_append_right (by omega), before, Nat.add_sub_cancel_left,
    getElem?_placeNodes]

/-- Exactly the nodes of places are in a clause. -/
theorem gadgetNodes_place_iff {j : Nat} : (∃ place, f.gadgetNodes[j]? = some ⟨l, some place⟩) ↔
    ∃ q, f.literals[q]? = some l ∧ j = 2 * f.varCount + q := by
  constructor
  · rintro ⟨place, found⟩
    by_cases low : j < 2 * f.varCount
    · rw [← length_literalNodes] at low
      rw [gadgetNodes_eq, List.getElem?_append_left low, literalNodes, List.getElem?_map,
        Option.map_eq_some_iff] at found
      obtain ⟨d, _, same⟩ := found
      cases same
    · obtain ⟨q, rfl⟩ := Nat.exists_eq_add_of_le (Nat.le_of_not_lt low)
      rw [getElem?_gadgetNodes_place, Option.map_eq_some_iff] at found
      obtain ⟨d, found, same⟩ := found
      cases same
      exact ⟨q, found, rfl⟩
  · rintro ⟨q, found, rfl⟩
    rw [getElem?_gadgetNodes_place, found]
    exact ⟨_, rfl⟩

/-! ## Neighbours -/

theorem mem_clauseEdges {e : Nat × Nat} {base : Nat} : e ∈ clauseEdges c base ↔
    (∃ p q, p < q ∧ q < 3 ∧ e = (base + p, base + q)) ∨
      ∃ p l, p < 3 ∧ c.literals[p]? = some l ∧ e = (base + p, l.node) := by
  constructor
  · intro he
    simp only [clauseEdges, List.mem_cons, List.not_mem_nil, or_false] at he
    rcases he with rfl | rfl | rfl | rfl | rfl | rfl
    · exact .inl ⟨0, 1, by omega, by omega, rfl⟩
    · exact .inl ⟨0, 2, by omega, by omega, rfl⟩
    · exact .inl ⟨1, 2, by omega, by omega, rfl⟩
    · exact .inr ⟨0, c.first, by omega, rfl, rfl⟩
    · exact .inr ⟨1, c.second, by omega, rfl, rfl⟩
    · exact .inr ⟨2, c.third, by omega, rfl, rfl⟩
  · rintro (⟨p, q, hpq, hq, rfl⟩ | ⟨p, l, hp, hl, rfl⟩)
    · have sides : (p = 0 ∧ q = 1) ∨ (p = 0 ∧ q = 2) ∨ (p = 1 ∧ q = 2) := by omega
      rcases sides with ⟨rfl, rfl⟩ | ⟨rfl, rfl⟩ | ⟨rfl, rfl⟩ <;> simp [clauseEdges]
    · have places : p = 0 ∨ p = 1 ∨ p = 2 := by omega
      rcases places with rfl | rfl | rfl <;> cases hl <;> simp [clauseEdges]

/-- The listed edges by the numbers of their ends: the pairs of variable nodes, the sides of the
triangles, and the edges from the places to the nodes of their literals. -/
theorem mk_mem_gadgetEdges {i j : Nat} : (i, j) ∈ f.gadgetEdges ↔
    (∃ v < f.varCount, i = 2 * v ∧ j = 2 * v + 1) ∨
    (∃ q r, q < r ∧ r < 3 * f.size ∧ r / 3 = q / 3 ∧
      i = 2 * f.varCount + q ∧ j = 2 * f.varCount + r) ∨
    ∃ q l, f.literals[q]? = some l ∧ i = 2 * f.varCount + q ∧ j = l.node := by
  simp only [mem_gadgetEdges, mem_clauseEdges, Prod.mk.injEq]
  constructor
  · rintro (pair | ⟨k, c, hc, ⟨p, q, hpq, hq, rfl, rfl⟩ | ⟨p, l, hp, hl, rfl, rfl⟩⟩)
    · exact .inl pair
    · have hk : k < f.size := (List.getElem?_eq_some_iff.mp hc).1
      exact .inr (.inl ⟨3 * k + p, 3 * k + q, by omega, by omega, by omega, by omega, by omega⟩)
    · exact .inr (.inr ⟨3 * k + p, l, (getElem?_literals hc hp).trans hl, by omega, rfl⟩)
  · have clause {q : Nat} (hq : q < 3 * f.size) : ∃ c, f.clauses[q / 3]? = some c :=
      ⟨_, List.getElem?_eq_getElem (show q / 3 < f.clauses.length by unfold size at hq; omega)⟩
    rintro (pair | ⟨q, r, hqr, hr, same, rfl, rfl⟩ | ⟨q, l, hl, rfl, rfl⟩)
    · exact .inl pair
    · obtain ⟨c, hc⟩ := clause (q := q) (by omega)
      exact .inr ⟨q / 3, c, hc, .inl ⟨q % 3, r % 3, by omega, by omega, by omega, by omega⟩⟩
    · obtain ⟨c, hc⟩ := clause (lt_of_getElem?_literals hl)
      have hp : q % 3 < 3 := Nat.mod_lt q (by omega)
      have place := getElem?_literals hc hp
      rw [Nat.div_add_mod, hl] at place
      exact .inr ⟨q / 3, c, hc, .inr ⟨q % 3, l, hp, place.symm, by omega, rfl⟩⟩

theorem adj_ofNat {i j : Nat} : f.gadgetGraph.Adj (Label.ofNat i) (Label.ofNat j) ↔
    (i, j) ∈ f.gadgetEdges ∨ (j, i) ∈ f.gadgetEdges := by
  simp [adj_gadgetGraph]

theorem exists_ofNat_of_adj {v : Label} (adj : f.gadgetGraph.Adj v u) : ∃ j, u = Label.ofNat j := by
  obtain ⟨_, j, _, hj, _⟩ := adj_gadgetGraph.mp adj
  exact ⟨j, hj⟩

/-- **The neighbours of a place** are the variable node of its literal and the other places of its
clause. -/
theorem adj_place {q : Nat} (hl : f.literals[q]? = some l) :
    f.gadgetGraph.Adj (Label.ofNat (2 * f.varCount + q)) u ↔
      u = Label.ofNat l.node ∨
        ∃ r, r / 3 = q / 3 ∧ r ≠ q ∧ u = Label.ofNat (2 * f.varCount + r) := by
  have hq := lt_of_getElem?_literals hl
  constructor
  · intro adj
    obtain ⟨j, rfl⟩ := exists_ofNat_of_adj adj
    simp only [Label.ofNat_inj]
    rcases adj_ofNat.mp adj with edge | edge
    · rcases mk_mem_gadgetEdges.mp edge with
        ⟨v, hv, _, _⟩ | ⟨a, r, _, _, _, _, rfl⟩ | ⟨a, d, hd, _, rfl⟩
      · omega
      · exact .inr ⟨r, by omega, by omega, rfl⟩
      · have same : a = q := by omega
        subst same
        rw [hl] at hd
        cases hd
        exact .inl rfl
    · rcases mk_mem_gadgetEdges.mp edge with
        ⟨v, hv, _, _⟩ | ⟨r, a, _, _, _, rfl, _⟩ | ⟨a, d, hd, _, same⟩
      · omega
      · exact .inr ⟨r, by omega, by omega, rfl⟩
      · have := node_lt (List.mem_of_getElem? hd)
        omega
  · rintro (rfl | ⟨r, same, other, rfl⟩)
    · exact adj_ofNat.mpr (.inl (mk_mem_gadgetEdges.mpr (.inr (.inr ⟨q, l, hl, rfl, rfl⟩))))
    · rw [adj_ofNat, mk_mem_gadgetEdges, mk_mem_gadgetEdges]
      rcases Nat.lt_or_gt_of_ne other with before | after
      · exact .inr (.inr (.inl ⟨r, q, before, hq, by omega, rfl, rfl⟩))
      · exact .inl (.inr (.inl ⟨q, r, after, by omega, same, rfl, rfl⟩))

/-- **The neighbours of a variable node** are the node of the other literal of its variable and the
places of its own literal. -/
theorem adj_node (h : l.var ≤ f.varCount) :
    f.gadgetGraph.Adj (Label.ofNat l.node) u ↔
      u = Label.ofNat l.negate.node ∨
        ∃ q, f.literals[q]? = some l ∧ u = Label.ofNat (2 * f.varCount + q) := by
  have low : l.node < 2 * f.varCount := Literal.node_lt_iff.mpr h
  constructor
  · intro adj
    obtain ⟨j, rfl⟩ := exists_ofNat_of_adj adj
    simp only [Label.ofNat_inj]
    rcases adj_ofNat.mp adj with edge | edge
    · rcases mk_mem_gadgetEdges.mp edge with pair | ⟨a, r, _, _, _, _, _⟩ | ⟨a, d, _, _, _⟩
      · exact .inl ((Literal.negate_node_iff h).mpr (.inl pair))
      · omega
      · omega
    · rcases mk_mem_gadgetEdges.mp edge with pair | ⟨a, r, _, _, _, _, _⟩ | ⟨q, d, hd, rfl, same⟩
      · exact .inl ((Literal.negate_node_iff h).mpr (.inr pair))
      · omega
      · rw [Literal.node_inj.mp same]
        exact .inr ⟨q, hd, rfl⟩
  · rintro (rfl | ⟨q, hl, rfl⟩)
    · rw [adj_ofNat, mk_mem_gadgetEdges, mk_mem_gadgetEdges]
      exact ((Literal.negate_node_iff h).mp rfl).imp .inl .inl
    · exact adj_ofNat.mpr (.inr (mk_mem_gadgetEdges.mpr (.inr (.inr ⟨q, l, hl, rfl, rfl⟩))))

theorem gadgetGraph_loopless (f : Formula) (v : Label) : ¬ f.gadgetGraph.Adj v v := by
  intro loop
  obtain ⟨i, rfl⟩ := exists_ofNat_of_adj loop
  rcases mk_mem_gadgetEdges.mp (or_self_iff.mp (adj_ofNat.mp loop)) with
    ⟨v, _, _, _⟩ | ⟨q, r, _, _, _, _, _⟩ | ⟨q, l, hl, _, same⟩
  · omega
  · omega
  · have := node_lt (List.mem_of_getElem? hl)
    omega

/-! ## Degrees -/

/-- The degree of a node that is joined with one variable node and with some places. -/
theorem degree_eq_succ {i a : Nat} {places : List Nat} (nodup : places.Nodup)
    (low : a < 2 * f.varCount)
    (same : ∀ u, f.gadgetGraph.Adj (Label.ofNat i) u ↔
      u = Label.ofNat a ∨ ∃ q ∈ places, u = Label.ofNat (2 * f.varCount + q)) :
    f.gadgetGraph.degree (Label.ofNat i) = 1 + places.length := by
  have others : (Label.ofNat a ::
      places.map fun q => Label.ofNat (2 * f.varCount + q)).Nodup := by
    refine List.nodup_cons.mpr ⟨?_, nodup.map fun q r same => ?_⟩
    · intro listed
      obtain ⟨q, _, same⟩ := List.mem_map.mp listed
      rw [Label.ofNat_inj] at same
      omega
    · rw [Label.ofNat_inj] at same
      omega
  rw [degree_eq_length (f.gadgetGraph_loopless _) others, List.length_cons, List.length_map,
    Nat.add_comm]
  intro u
  rw [same u, List.mem_cons, List.mem_map]
  simp only [eq_comm]

theorem degree_place {q : Nat} (hl : f.literals[q]? = some l) :
    f.gadgetGraph.degree (Label.ofNat (2 * f.varCount + q)) = 3 := by
  let others := (List.range 3).filter fun p => p ≠ q % 3
  have listed (p : Nat) : p ∈ others ↔ p < 3 ∧ p ≠ q % 3 := by simp [others]
  have two : others.length = 2 := by
    have cases : q % 3 = 0 ∨ q % 3 = 1 ∨ q % 3 = 2 := by omega
    rcases cases with place | place | place <;> simp only [others, place] <;> rfl
  have nodup : (others.map (3 * (q / 3) + ·)).Nodup :=
    (List.nodup_range.filter _).map fun a b same => Nat.add_left_cancel same
  rw [degree_eq_succ nodup (node_lt (List.mem_of_getElem? hl)), List.length_map, two]
  intro u
  rw [adj_place hl]
  refine or_congr_right ⟨?_, ?_⟩
  · rintro ⟨r, clause, other, rfl⟩
    exact ⟨r, List.mem_map.mpr ⟨r % 3, (listed _).mpr (by omega), by omega⟩, rfl⟩
  · rintro ⟨r, member, rfl⟩
    obtain ⟨p, chosen, rfl⟩ := List.mem_map.mp member
    have place := (listed p).mp chosen
    exact ⟨_, by omega, by omega, rfl⟩

theorem degree_node (h : l.var ≤ f.varCount) :
    f.gadgetGraph.degree (Label.ofNat l.node) = 1 + f.literals.count l := by
  let places := (f.literals.zipIdx.filter fun e => e.1 = l).map Prod.snd
  have nodup : places.Nodup := by
    apply List.Nodup.sublist (List.filter_sublist.map Prod.snd)
    rw [List.zipIdx_map_snd]
    exact List.nodup_range'
  have counted : places.length = f.literals.count l := by
    have listed : f.literals.zipIdx.map Prod.fst = f.literals := List.zipIdx_map_fst 0 _
    rw [List.length_map, ← List.countP_eq_length_filter]
    conv_rhs => rw [← listed, List.count, List.countP_map]
    rfl
  have low : l.negate.node < 2 * f.varCount := Literal.node_lt_iff.mpr h
  rw [degree_eq_succ nodup low, counted]
  intro u
  rw [adj_node h]
  refine or_congr_right (exists_congr fun q => and_congr_left fun _ => ?_)
  rw [← List.mk_mem_zipIdx_iff_getElem?]
  simp [places]

/-- **No two listed edges are the same.** -/
theorem edgeCount_gadgetGraph (f : Formula) :
    f.gadgetGraph.edgeCount = f.varCount + 6 * f.size := by
  have split : Label.upTo (2 * f.varCount + 3 * f.size) =
      (literalsUpTo f.varCount).map (fun l => Label.ofNat l.node) ++
        (List.range (3 * f.size)).map fun q => Label.ofNat (2 * f.varCount + q) := by
    have nodes := map_node_literalsUpTo f.varCount
    rw [Label.upTo, List.range_add, ← nodes, List.map_append, List.map_map, List.map_map]
    rfl
  have literals : ((literalsUpTo f.varCount).map fun l =>
      f.gadgetGraph.degree (Label.ofNat l.node)).sum = 2 * f.varCount + 3 * f.size := by
    have each : (literalsUpTo f.varCount).map (fun l => f.gadgetGraph.degree (Label.ofNat l.node)) =
        (literalsUpTo f.varCount).map fun l => 1 + f.literals.count l :=
      List.map_congr_left fun l listed => degree_node (mem_literalsUpTo.mp listed)
    rw [each, List.sum_map_add, sum_map_count (literalsUpTo_nodup _), length_literals]
    · simp [length_literalsUpTo]
    · exact fun l hl => mem_literalsUpTo.mpr (le_varCount hl)
  have places : ((List.range (3 * f.size)).map fun q =>
      f.gadgetGraph.degree (Label.ofNat (2 * f.varCount + q))).sum = 3 * f.size * 3 := by
    have each : (List.range (3 * f.size)).map
        (fun q => f.gadgetGraph.degree (Label.ofNat (2 * f.varCount + q))) =
        (List.range (3 * f.size)).map fun _ => 3 := by
      refine List.map_congr_left fun q hq => ?_
      rw [List.mem_range, ← length_literals] at hq
      exact degree_place (List.getElem?_eq_getElem hq)
    rw [each]
    simp
  have ends := f.gadgetGraph.sum_degree
  rw [nodes_gadgetGraph, split, List.map_append, List.sum_append, List.map_map,
    List.map_map] at ends
  simp only [Function.comp_def] at ends
  omega

/-- **The shape of the gadget graph.** For `n` variables and `m` clauses it is frozen, has the nodes
`0, …, 2n + 3m - 1` in this order, `n + 6m` edges and no loop. Nodes `2i` and `2i + 1` carry the
literals of variable `i + 1`, and node `2n + 3k + p` carries the literal at place `p` of clause `k`.
A clause node has three edges: two to the other places of its clause and one to the variable node
that carries the same literal. A variable node has an edge to the node of the opposite literal and
one to every clause node that carries its own. -/
theorem gadgetGraph_shape (f : Formula) :
    f.gadgetGraph.frozen = true ∧
    f.gadgetGraph.nodes = Label.upTo (2 * f.varCount + 3 * f.size) ∧
    f.gadgetGraph.edgeCount = f.varCount + 6 * f.size ∧
    (∀ v, ¬ f.gadgetGraph.Adj v v) ∧
    f.gadgetNodes.length = 2 * f.varCount + 3 * f.size ∧
    (∀ i < f.varCount,
      f.gadgetNodes[2 * i]? = some ⟨⟨i + 1, true, i.succ_pos⟩, none⟩ ∧
      f.gadgetNodes[2 * i + 1]? = some ⟨⟨i + 1, false, i.succ_pos⟩, none⟩) ∧
    (∀ k c p l, f.clauses[k]? = some c → c.literals[p]? = some l →
      f.gadgetNodes[2 * f.varCount + 3 * k + p]? = some ⟨l, some (k, p)⟩ ∧
      f.gadgetNodes[l.node]? = some ⟨l, none⟩ ∧
      f.gadgetGraph.degree (Label.ofNat (2 * f.varCount + 3 * k + p)) = 3 ∧
      ∀ u, f.gadgetGraph.Adj (Label.ofNat (2 * f.varCount + 3 * k + p)) u ↔
        u = Label.ofNat l.node ∨
          ∃ q < 3, q ≠ p ∧ u = Label.ofNat (2 * f.varCount + 3 * k + q)) ∧
    (∀ l : Literal, l.var ≤ f.varCount →
      f.gadgetNodes[l.node]? = some ⟨l, none⟩ ∧
      f.gadgetGraph.degree (Label.ofNat l.node) = 1 + f.literals.count l ∧
      ∀ u, f.gadgetGraph.Adj (Label.ofNat l.node) u ↔
        u = Label.ofNat l.negate.node ∨
          ∃ j place, f.gadgetNodes[j]? = some ⟨l, some place⟩ ∧ u = Label.ofNat j) := by
  refine ⟨rfl, f.nodes_gadgetGraph, f.edgeCount_gadgetGraph, f.gadgetGraph_loopless,
    f.length_gadgetNodes, ?_, ?_, ?_⟩
  · intro i hi
    exact ⟨getElem?_gadgetNodes_node (l := ⟨i + 1, true, i.succ_pos⟩) hi,
      getElem?_gadgetNodes_node (l := ⟨i + 1, false, i.succ_pos⟩) hi⟩
  · intro k c p l hc hl
    have hp : p < 3 := (List.getElem?_eq_some_iff.mp hl).1
    have place : f.literals[3 * k + p]? = some l := (getElem?_literals hc hp).trans hl
    have low := le_varCount (List.mem_of_getElem? place)
    have clause : (3 * k + p) / 3 = k := by omega
    have rest : (3 * k + p) % 3 = p := by omega
    rw [Nat.add_assoc]
    refine ⟨?_, getElem?_gadgetNodes_node low, degree_place place, fun u => ?_⟩
    · rw [getElem?_gadgetNodes_place, place, Option.map_some, clause, rest]
    · rw [adj_place place, clause]
      refine or_congr_right ⟨?_, ?_⟩
      · rintro ⟨r, same, other, rfl⟩
        exact ⟨r % 3, by omega, by omega, by rw [Label.ofNat_inj]; omega⟩
      · rintro ⟨q, hq, other, rfl⟩
        exact ⟨3 * k + q, by omega, by omega, by rw [Nat.add_assoc]⟩
  · intro l low
    refine ⟨getElem?_gadgetNodes_node low, degree_node low, fun u => ?_⟩
    rw [adj_node low]
    refine or_congr_right ⟨?_, ?_⟩
    · rintro ⟨q, found, rfl⟩
      obtain ⟨place, carried⟩ := gadgetNodes_place_iff.mpr ⟨q, found, rfl⟩
      exact ⟨_, place, carried, rfl⟩
    · rintro ⟨j, place, carried, rfl⟩
      obtain ⟨q, found, rfl⟩ := gadgetNodes_place_iff.mp ⟨place, carried⟩
      exact ⟨q, found, rfl⟩

end Formula

end VertexCover
