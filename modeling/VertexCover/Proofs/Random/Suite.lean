import VertexCover.Proofs.FileTree
import VertexCover.Proofs.Instance.RoundTrip
import VertexCover.Proofs.Random.Planted
import VertexCover.Random.Suite

/-!
# Suites are read back as they were asked for

The graphs of a suite are made setting by setting and its formulas shape by shape, so the loops are
followed one round at a time: a round adds instances of the size or shape that was asked for,
however many were made before it. The files then give back what was written.

* `graphs_eq_ok`: the graphs of a suite, with the orders of the settings;
* `Pairs`, `formulas_eq_ok`: the formulas, a planted one before each random one;
* `write_eq`: the two files;
* `write_read_back`: reading the files of a suite.
-/

namespace VertexCover

/-- The numbers of variables and clauses. -/
def Formula.shape (f : Formula) : List Int := [(f.varCount : Int), (f.size : Int)]

namespace Random

/-! ## Graphs -/

theorem graphOfSeed_eq_ok {n : Int} (natural : 0 ≤ n) (p : Double) (seed : Int) :
    ∃ g, graphOfSeed n p seed = .ok g ∧ g.order = n.toNat := by
  refine ⟨_, if_neg (Int.not_lt.mpr natural), ?_⟩
  simp [Graph.order, Graph.freeze, Graph.ofUpper, Label.upTo]

namespace Suite

variable {suite : Suite}

theorem graphsOf_eq_ok {n : Int} (natural : 0 ≤ n) (seed : Int) (p : Double) (made count : Nat) :
    ∃ graphs, graphsOf seed n p made count = .ok graphs ∧
      graphs.map Graph.order = List.replicate count n.toNat := by
  induction count generalizing made with
  | zero => exact ⟨[], rfl, rfl⟩
  | succ count ih =>
    obtain ⟨g, drawn, order⟩ := graphOfSeed_eq_ok natural p (seed + made)
    obtain ⟨graphs, rest, orders⟩ := ih (made + 1)
    refine ⟨g :: graphs, ?_, ?_⟩
    · rw [graphsOf, drawn]
      simp only [bind, Except.bind, rest, pure, Except.pure]
    · rw [List.map_cons, order, orders, List.replicate_succ]

theorem graphsFrom_eq_ok {settings : List (Int × Double)} (natural : ∀ s ∈ settings, 0 ≤ s.1)
    (made : Nat) : ∃ graphs, suite.graphsFrom made settings = .ok graphs ∧
      graphs.map Graph.order =
        settings.flatMap fun s => List.replicate suite.graphsPerSetting.toNat s.1.toNat := by
  induction settings generalizing made with
  | nil => exact ⟨[], rfl, rfl⟩
  | cons s settings ih =>
    obtain ⟨n, p⟩ := s
    obtain ⟨here, first, orders⟩ := graphsOf_eq_ok (natural (n, p) List.mem_cons_self) suite.seed p
      made suite.graphsPerSetting.toNat
    obtain ⟨later, rest, others⟩ := ih (fun s hs => natural s (List.mem_cons_of_mem _ hs))
      (made + here.length)
    refine ⟨here ++ later, ?_, ?_⟩
    · rw [graphsFrom, first]
      simp only [bind, Except.bind, rest, pure, Except.pure]
    · rw [List.map_append, orders, others, List.flatMap_cons]

/-- The orders that are asked for: size by size, and for each size probability by probability. -/
def orders (suite : Suite) : List Nat :=
  suite.sizes.flatMap fun n => suite.probabilities.flatMap fun _ =>
    List.replicate suite.graphsPerSetting.toNat n.toNat

theorem length_orders (suite : Suite) : (suite.orders.length : Int) =
    suite.sizes.length * suite.probabilities.length * max 0 suite.graphsPerSetting := by
  have length : suite.orders.length =
      suite.sizes.length * (suite.probabilities.length * suite.graphsPerSetting.toNat) := by
    simp [orders, List.length_flatMap]
  rw [length, Int.natCast_mul, Int.natCast_mul, Int.ofNat_toNat, Int.max_comm, Int.mul_assoc]

theorem mem_orders {n : Nat} (h : n ∈ suite.orders) : suite.probabilities ≠ [] ∧
    0 < suite.graphsPerSetting ∧ ∃ size ∈ suite.sizes, size.toNat = n := by
  obtain ⟨size, hs, h⟩ := List.mem_flatMap.mp h
  obtain ⟨p, hp, h⟩ := List.mem_flatMap.mp h
  obtain ⟨some, rfl⟩ := List.mem_replicate.mp h
  exact ⟨List.ne_nil_of_mem hp, by omega, size, hs, rfl⟩

theorem graphs_eq_ok (natural : ∀ n ∈ suite.sizes, 0 ≤ n) :
    ∃ graphs, suite.graphs = .ok graphs ∧ graphs.map Graph.order = suite.orders := by
  have all : ∀ s ∈ suite.settings, 0 ≤ s.1 := by
    intro s hs
    obtain ⟨n, hn, hs⟩ := List.mem_flatMap.mp hs
    obtain ⟨p, _, rfl⟩ := List.mem_map.mp hs
    exact natural n hn
  obtain ⟨graphs, made, same⟩ := graphsFrom_eq_ok all 0
  refine ⟨graphs, made, ?_⟩
  rw [same, settings, List.flatMap_assoc]
  simp only [List.flatMap_map, orders]

/-! ## Formulas -/

/-- Formulas of the shapes, two of each: one that is satisfiable, and then another one. -/
inductive Pairs : List (List Int) → List Formula → Prop
  | nil : Pairs [] []
  | cons {shape : List Int} {shapes : List (List Int)} {first second : Formula}
      {formulas : List Formula} (satisfiable : first.solve.satisfiable = true)
      (first_shape : first.shape = shape) (second_shape : second.shape = shape)
      (rest : Pairs shapes formulas) : Pairs (shape :: shapes) (first :: second :: formulas)

namespace Pairs

variable {shapes : List (List Int)} {formulas : List Formula}

theorem append {others : List (List Int)} {later : List Formula} (first : Pairs shapes formulas)
    (second : Pairs others later) : Pairs (shapes ++ others) (formulas ++ later) := by
  induction first with
  | nil => exact second
  | cons satisfiable first_shape second_shape _ ih =>
    exact .cons satisfiable first_shape second_shape ih

theorem map_shape (h : Pairs shapes formulas) :
    formulas.map Formula.shape = shapes.flatMap (List.replicate 2) := by
  induction h with
  | nil => rfl
  | cons _ first_shape second_shape _ ih =>
    rw [List.map_cons, List.map_cons, first_shape, second_shape, ih]
    rfl

theorem map_shape_replicate {count : Nat}
    (h : Pairs (shapes.flatMap (List.replicate count)) formulas) :
    formulas.map Formula.shape = shapes.flatMap (List.replicate (2 * count)) := by
  have double (shape : List Int) : (List.replicate count shape).flatMap (List.replicate 2) =
      List.replicate (2 * count) shape := by
    rw [List.flatMap_replicate, List.flatten_replicate_replicate, Nat.mul_comm]
  simp only [h.map_shape, List.flatMap_assoc, double]

/-- Every other formula is satisfiable, from the first one on. -/
theorem satisfiable (h : Pairs shapes formulas) {i : Nat} {f : Formula}
    (found : formulas[2 * i]? = some f) : f.solve.satisfiable = true := by
  induction h generalizing i with
  | nil => cases found
  | cons satisfiable _ _ _ ih =>
    cases i with
    | zero =>
      cases found
      exact satisfiable
    | succ i => exact ih found

end Pairs

section
variable {vars clauses seed : Int} (least : 1 ≤ vars) (word : vars < wordLimit)
  (filled : 1 ≤ clauses) (natural : 0 ≤ seed)
include least word filled natural

theorem plantedOfSeed_eq_ok (fits : 24 * clauses < wordLimit) : ∃ f hidden,
    plantedOfSeed vars clauses seed = .ok (f, hidden) ∧ f.shape = [vars, clauses] ∧
      f.solve.satisfiable = true := by
  obtain ⟨f, hidden, made, size, _, count, _, _, told⟩ := planted_eq_ok Lcg.next (.ofSeed seed)
    (fun _ => least) (by omega) word fits
  refine ⟨f, hidden, ?_, ?_, told⟩
  · rw [plantedOfSeed, Lcg.ofSeed?_eq natural]
    exact made
  · rw [Formula.shape, size, count (by omega)]

theorem formulaOfSeed_eq_ok (fits : 24 * clauses < wordLimit) : ∃ f,
    formulaOfSeed vars clauses seed = .ok f ∧ f.shape = [vars, clauses] := by
  obtain ⟨f, t, made, size, _, count⟩ := formula_eq_ok Lcg.next (.ofSeed seed) (fun _ => least)
    (by omega) word (checkLength_ok (by omega) fits)
  refine ⟨f, ?_, ?_⟩
  · rw [formulaOfSeed_eq (fun _ => least) natural, made]
    rfl
  · rw [Formula.shape, size, count (by omega)]

theorem pairsOf_eq_ok (made : Nat) {count : Nat} (fits : 0 < count → 24 * clauses < wordLimit) :
    ∃ formulas, pairsOf seed vars clauses made count = .ok formulas ∧
      Pairs (List.replicate count [vars, clauses]) formulas := by
  induction count generalizing made with
  | zero => exact ⟨[], rfl, .nil⟩
  | succ count ih =>
    have here := fits count.succ_pos
    have even : 0 ≤ seed + made := by omega
    have odd : 0 ≤ seed + 1000 + (made + 1 : Nat) := by omega
    obtain ⟨first, hidden, planted, first_shape, told⟩ :=
      plantedOfSeed_eq_ok least word filled even here
    obtain ⟨second, drawn, second_shape⟩ := formulaOfSeed_eq_ok least word filled odd here
    obtain ⟨formulas, rest, pairs⟩ := ih (made + 2) fun _ => here
    refine ⟨first :: second :: formulas, ?_, .cons told first_shape second_shape pairs⟩
    rw [pairsOf, planted]
    simp only [bind, Except.bind, drawn, rest, pure, Except.pure]

end

/-- A shape that formulas can be made of, so many pairs of them. -/
def Proper (count : Int) (shape : List Int) : Prop :=
  ∃ vars clauses, shape = [vars, clauses] ∧ 1 ≤ vars ∧ vars < wordLimit ∧ 1 ≤ clauses ∧
    (0 < count → 24 * clauses < wordLimit)

theorem formulasFrom_eq_ok {shapes : List (List Int)} (natural : 0 ≤ suite.seed)
    (proper : ∀ shape ∈ shapes, Proper suite.formulasPerShape shape) (made : Nat) :
    ∃ formulas, suite.formulasFrom made shapes = .ok formulas ∧
      Pairs (shapes.flatMap (List.replicate suite.formulasPerShape.toNat)) formulas := by
  induction shapes generalizing made with
  | nil => exact ⟨[], rfl, .nil⟩
  | cons shape shapes ih =>
    obtain ⟨vars, clauses, rfl, least, word, filled, fits⟩ := proper shape List.mem_cons_self
    obtain ⟨here, first, pairs⟩ := pairsOf_eq_ok least word filled natural made
      fun some : 0 < suite.formulasPerShape.toNat => fits (by omega)
    obtain ⟨later, rest, others⟩ := ih (fun s hs => proper s (List.mem_cons_of_mem _ hs))
      (made + here.length)
    refine ⟨here ++ later, ?_, ?_⟩
    · rw [formulasFrom]
      simp only [Suite.shape, bind, Except.bind, first, rest, pure, Except.pure]
    · rw [List.flatMap_cons]
      exact pairs.append others

/-! ## The files -/

/-- Both files are written if the instances can be made and both texts can be saved. -/
theorem write_eq {tree saved_graphs saved_both : FileTree} {graphs : List Graph}
    {formulas : List Formula} (made_graphs : suite.graphs = .ok graphs)
    (made_formulas : suite.formulas = .ok formulas)
    (first : tree.save suite.graphPath (graphFile graphs) = (.ok (), saved_graphs))
    (second : saved_graphs.save suite.formulaPath (formulaFile formulas) = (.ok (), saved_both)) :
    suite.write tree = ⟨saved_both, [saved graphs.length "graph" suite.graphPath,
      saved formulas.length "formula" suite.formulaPath], none⟩ := by
  simp only [write, writeFormulas, made_graphs, first, made_formulas, second, List.cons_append,
    List.nil_append]

/-! ## Sizes -/

theorem word_lt_digits : wordLimit < ((10 ^ Text.digitLimit : Nat) : Int) := by
  have nineteen : wordLimit < ((10 ^ 19 : Nat) : Int) := by decide
  have more : 10 ^ 19 ≤ 10 ^ Text.digitLimit := Nat.pow_le_pow_right (by decide) (by decide)
  omega

theorem length_formulas {formulas : List Formula} (shapes : formulas.map Formula.shape =
      suite.shapes.flatMap (List.replicate (2 * suite.formulasPerShape.toNat))) :
    (formulas.length : Int) = 2 * suite.shapes.length * max 0 suite.formulasPerShape := by
  have length : formulas.length = suite.shapes.length * (2 * suite.formulasPerShape.toNat) := by
    rw [← List.length_map Formula.shape, shapes]
    simp [List.length_flatMap]
  rw [length, Int.natCast_mul, Int.natCast_mul, Int.ofNat_toNat, Int.max_comm, ← Int.mul_assoc,
    Int.mul_comm suite.shapes.length]
  rfl

/-- A formula of a proper shape has a clause, and its variables can be read. -/
theorem Proper.formula {f : Formula} {count : Int} (h : Proper count f.shape) :
    f.clauses ≠ [] ∧ ∀ l ∈ f.literals, l.var < 10 ^ Text.digitLimit := by
  obtain ⟨vars, clauses, same, _, word, filled, _⟩ := h
  simp only [Formula.shape, List.cons.injEq, and_true] at same
  obtain ⟨count, size⟩ := same
  constructor
  · rw [← List.length_pos_iff]
    change 0 < f.size
    omega
  · intro l hl
    have := Formula.le_varCount hl
    have := word_lt_digits
    omega

/-! ## Reading -/

/-- **A suite is read back as it was asked for.** Let the paths name different files that can be
written one after the other, and let graphs and formulas have sizes that numbers can be read for and
arrays can be made for. Then both files are written, and every instance in them can be read. The
orders of the graphs and the shapes of the formulas are those that were asked for, in the order of
the loops; the formulas with an odd number, the planted ones, are satisfiable. -/
theorem write_read_back (suite : Suite) (tree : FileTree) (natural : ∀ n ∈ suite.sizes, 0 ≤ n)
    (readable : suite.probabilities ≠ [] → 0 < suite.graphsPerSetting →
      ∀ n ∈ suite.sizes, n.toNat < 10 ^ Text.digitLimit)
    (proper : ∀ shape ∈ suite.shapes, Proper suite.formulasPerShape shape)
    (seed : 0 ≤ suite.seed) (first : tree.Writable suite.graphPath)
    (second : ∀ text, (tree.save suite.graphPath text).2.Writable suite.formulaPath)
    (apart : placeOf suite.graphPath ≠ placeOf suite.formulaPath) :
    (suite.write tree).fault = none ∧
    ∃ (graphs : List Graph) (formulas : List Formula),
      ((suite.write tree).tree.readLines suite.graphPath).map readGraphs =
        .ok (graphs.mapIdx fun i g => ⟨(i : Int) + 1, .ok g⟩) ∧
      graphs.map Graph.order = suite.orders ∧
      (graphs.length : Int) =
        suite.sizes.length * suite.probabilities.length * max 0 suite.graphsPerSetting ∧
      ((suite.write tree).tree.readLines suite.formulaPath).map readFormulas =
        .ok (formulas.mapIdx fun i f => ⟨(i : Int) + 1, .ok f⟩) ∧
      formulas.map Formula.shape =
        suite.shapes.flatMap (List.replicate (2 * suite.formulasPerShape.toNat)) ∧
      (formulas.length : Int) = 2 * suite.shapes.length * max 0 suite.formulasPerShape ∧
      ∀ i f, formulas[i]? = some f → (i + 1) % 2 = 1 → f.solve.satisfiable = true := by
  obtain ⟨graphs, made_graphs, orders⟩ := graphs_eq_ok natural
  obtain ⟨formulas, made_formulas, pairs⟩ := formulasFrom_eq_ok seed proper 0
  have shapes := pairs.map_shape_replicate
  have small : ∀ g ∈ graphs, g.order < 10 ^ Text.digitLimit := by
    intro g hg
    have mem : g.order ∈ suite.orders := orders ▸ List.mem_map_of_mem hg
    obtain ⟨some, positive, n, hn, same⟩ := mem_orders mem
    exact same ▸ readable some positive n hn
  have formula : ∀ f ∈ formulas,
      f.clauses ≠ [] ∧ ∀ l ∈ f.literals, l.var < 10 ^ Text.digitLimit := by
    intro f hf
    have mem : f.shape ∈ formulas.map Formula.shape := List.mem_map_of_mem hf
    rw [shapes] at mem
    obtain ⟨shape, hs, repeated⟩ := List.mem_flatMap.mp mem
    obtain ⟨_, same⟩ := List.mem_replicate.mp repeated
    exact (same ▸ proper shape hs : Proper suite.formulasPerShape f.shape).formula
  have saved_graphs := first.save_eq (graphFile graphs)
  have saved_formulas := (second (graphFile graphs)).save_eq (formulaFile formulas)
  have written := write_eq made_graphs made_formulas saved_graphs saved_formulas
  have graph_file := (FileTree.save_holds saved_graphs).save saved_formulas apart
  have formula_file := FileTree.save_holds saved_formulas
  rw [written]
  refine ⟨rfl, graphs.map fun g => Graph.ofMatrix g.matrix, formulas, ?_, ?_, ?_, ?_, shapes,
    length_formulas shapes, ?_⟩
  · simp only [graph_file.readLines, Except.map, readGraphs_lines small]
  · rw [List.map_map, ← orders]
    exact List.map_congr_left fun g _ => g.numbers_ofMatrix.order_eq
  · rw [List.length_map, ← length_orders, ← orders, List.length_map]
  · simp only [formula_file.readLines, Except.map,
      readFormulas_lines_filled (fun f hf => (formula f hf).1) fun f hf => (formula f hf).2]
  · intro i f found odd
    obtain ⟨j, rfl⟩ : ∃ j, i = 2 * j := ⟨i / 2, by omega⟩
    exact pairs.satisfiable found

theorem writable_nested : FileTree.empty.Writable "g.txt" ∧
    ∀ text, (FileTree.empty.save "g.txt" text).2.Writable "c/d.txt" :=
  ⟨fun _ => rfl, fun _ _ => rfl⟩

/-- Two sizes at one probability, and one shape with a planted and a random formula; the second file
lies in a directory that is not there before. -/
theorem write_read_back_small : ∃ suite : Suite,
    suite.sizes = [0, 2] ∧ suite.graphsPerSetting = 2 ∧ suite.shapes = [[3, 2]] ∧
    suite.graphPath = "g.txt" ∧ suite.formulaPath = "c/d.txt" ∧
    ∃ (graphs : List Graph) (formulas : List Formula),
      ((suite.write .empty).tree.readLines suite.graphPath).map readGraphs =
        .ok (graphs.mapIdx fun i g => ⟨(i : Int) + 1, .ok g⟩) ∧
      graphs.map Graph.order = [0, 0, 2, 2] ∧
      ((suite.write .empty).tree.readLines suite.formulaPath).map readFormulas =
        .ok (formulas.mapIdx fun i f => ⟨(i : Int) + 1, .ok f⟩) ∧
      formulas.map Formula.shape = [[3, 2], [3, 2]] ∧
      ∀ f, formulas[0]? = some f → f.solve.satisfiable = true := by
  let half : Double := .finite false 1 (-1)
  refine ⟨⟨[0, 2], [half], 2, [[3, 2]], 1, "g.txt", "c/d.txt", 5⟩, rfl, rfl, rfl, rfl, rfl, ?_⟩
  generalize made : (⟨[0, 2], [half], 2, [[3, 2]], 1, "g.txt", "c/d.txt", 5⟩ : Suite) = suite
  have few : ∀ n ∈ suite.sizes, n.toNat < 10 ^ Text.digitLimit := by
    have below : ∀ n ∈ suite.sizes, n.toNat < 10 ^ 1 := by
      subst made
      decide
    intro n hn
    exact (below n hn).trans_le (Nat.pow_le_pow_right (by decide) (by decide))
  have proper : ∀ shape ∈ suite.shapes, Proper suite.formulasPerShape shape := by
    subst made
    intro shape hs
    obtain rfl := List.mem_singleton.mp hs
    exact ⟨3, 2, rfl, by decide, by decide, by decide, by decide⟩
  have writable : FileTree.empty.Writable suite.graphPath ∧
      ∀ text, (FileTree.empty.save suite.graphPath text).2.Writable suite.formulaPath := by
    subst made
    exact writable_nested
  have natural : ∀ n ∈ suite.sizes, 0 ≤ n := by
    subst made
    decide
  obtain ⟨_, graphs, formulas, graphs_read, orders, _, formulas_read, shapes, _, odd⟩ :=
    write_read_back suite .empty natural (fun _ _ => few) proper (by subst made; decide) writable.1
      writable.2 (by subst made; decide)
  have four : suite.orders = [0, 0, 2, 2] := by
    subst made
    rfl
  have two : suite.shapes.flatMap (List.replicate (2 * suite.formulasPerShape.toNat)) =
      [[3, 2], [3, 2]] := by
    subst made
    rfl
  exact ⟨graphs, formulas, graphs_read, orders.trans four, formulas_read, shapes.trans two,
    fun f first => odd 0 f first rfl⟩

/-- The formulas of a shape with too many clauses are never made, nor is their file written. -/
theorem write_too_long : ∃ suite : Suite, suite.sizes = [] ∧ suite.seed = 0 ∧
    suite.shapes = [[3, 100000000000000000000]] ∧ suite.formulasPerShape = 1 ∧
    (FileTree.empty.Writable suite.graphPath ∧
      ∀ text, (FileTree.empty.save suite.graphPath text).2.Writable suite.formulaPath) ∧
    placeOf suite.graphPath ≠ placeOf suite.formulaPath ∧
    (suite.write .empty).fault = some .dimensionTooLarge ∧
    (suite.write .empty).tree.readLines suite.formulaPath =
      .error (.file (.missing suite.formulaPath)) :=
  ⟨⟨[], [], 0, [[3, 100000000000000000000]], 1, "g.txt", "c/d.txt", 0⟩, rfl, rfl, rfl, rfl,
    writable_nested, by decide, rfl, rfl⟩

end Suite

end Random

end VertexCover
