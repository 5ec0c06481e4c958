import Mathlib.Data.Set.List
import VertexCover.Proofs.Batch.Baseline
import VertexCover.Proofs.Instance.GraphBlock
import VertexCover.Proofs.Label
import VertexCover.Proofs.Text.Quoted

/-!
# The report line of an instance

The line on an instance is a function of its number and its content, the mode and the bound. It shows
the error of a block that was not read, and for a graph its counts and the nodes that answer for it
in ascending order. A mark at the end says that no answer meets the bound.

* `nodes_of_mem_readGraphs`, `oneLine_of_mem_readGraphs`: graphs and errors of a file;
* `reportLine`: the line on an instance; `GraphTask.solveAll_reported`: the batch gives these lines;
* `Shows`, `reportLine_shows`: what the line on a graph says.
-/

namespace VertexCover
open Text

variable {g : Graph} {mode : Mode} {k : Option Int} {line message : String} {lines : List String}

/-! ## Errors are single lines -/

theorem oneLine_of_readRow {n : Int} {cause : Malformed} (h : readRow line n = .error cause) :
    OneLine cause.message := by
  unfold readRow at h
  dsimp only at h
  split at h
  · obtain ⟨token, _, bad⟩ := mapM_eq_error h
    unfold readEntry at bad
    split at bad
    · cases bad
    split at bad
    · cases bad
    cases bad
    unfold Malformed.message
    apply OneLine.append
    · decide
    · exact oneLine_quoted _
  · cases h
    unfold Malformed.message
    repeat apply OneLine.append
    · decide
    · exact oneLine_ofInteger n
    · decide
    · exact oneLine_ofNatural _
    · decide
    · exact oneLine_quoted _

/-- A block fault is worded in one line if the cause of a bad row is. -/
theorem BlockFault.oneLine_message {fault : BlockFault} (index : Int)
    (row : ∀ number cause, fault = .row number cause → OneLine cause.message) :
    OneLine (fault.message index) := by
  have number := oneLine_ofInteger index
  cases fault with
  | header text =>
    unfold message
    repeat apply OneLine.append
    · decide
    · exact number
    · decide
    · exact oneLine_quoted text
  | negativeOrder n =>
    unfold message
    repeat apply OneLine.append
    · decide
    · exact number
    · decide
    · exact oneLine_ofInteger n
  | truncated expected found =>
    unfold message
    repeat apply OneLine.append
    · decide
    · exact number
    · decide
    · exact oneLine_ofNatural expected
    · decide
    · exact oneLine_ofNatural found
  | row place cause =>
    unfold message
    repeat apply OneLine.append
    · decide
    · exact number
    · decide
    · exact oneLine_ofNatural place
    · decide
    · exact row place cause rfl

theorem oneLine_of_readRows {n start number : Nat} {cause : Malformed}
    (h : readRows n start lines = .error (.row number cause)) : OneLine cause.message := by
  induction lines generalizing start with
  | nil => cases h
  | cons line lines ih =>
    rw [readRows] at h
    split at h
    · rename_i bad
      cases h
      exact oneLine_of_readRow bad
    · split at h
      · rename_i later
        cases h
        exact ih later
      · cases h

theorem Block.oneLine_of_read {b : Block} {number : Nat} {cause : Malformed}
    (h : b.read = .error (.row number cause)) : OneLine cause.message := by
  unfold Block.read at h
  split at h
  · cases h
  split at h
  · cases h
  unfold readBlock at h
  split at h
  · cases h
  split at h
  · rename_i bad
    cases h
    exact oneLine_of_readRows bad
  · cases h

/-! ## The instances of a file -/

section
variable {item : Instance String Graph}

theorem exists_block (h : item ∈ readGraphs lines) :
    ∃ (b : Block) (i : Instance BlockFault Graph), i.content = b.read ∧
      item = i.describe BlockFault.message := by
  obtain ⟨blocks, layout⟩ := exists_layout lines
  rw [readGraphs, layout.readBlocks_eq] at h
  obtain ⟨i, listed, rfl⟩ := List.mem_map.mp h
  obtain ⟨b, _, read⟩ := List.mem_map.mp (Instance.content_mem listed)
  exact ⟨b, i, read.symm, rfl⟩

theorem nodes_of_mem_readGraphs (h : item ∈ readGraphs lines) (graph : item.content = .ok g) :
    ∃ n, g.nodes = Label.upTo n := by
  obtain ⟨b, i, read, rfl⟩ := exists_block h
  obtain ⟨n, rows, _, rfl⟩ := (readGraphs_eq_ok_iff read).mp graph
  exact ⟨_, Graph.nodes_ofMatrix rows⟩

theorem oneLine_of_mem_readGraphs (h : item ∈ readGraphs lines)
    (bad : item.content = .error message) : OneLine message := by
  obtain ⟨b, i, read, rfl⟩ := exists_block h
  unfold Instance.describe at bad
  cases content : i.content with
  | ok g => simp [content] at bad
  | error fault =>
    simp only [content, Except.error.injEq] at bad
    subst bad
    rw [content] at read
    apply fault.oneLine_message i.index
    rintro number cause rfl
    exact b.oneLine_of_read read.symm

end

/-! ## The nodes that are listed -/

theorem Label.sort_map_ofNat (is : List Nat) :
    sort (is.map ofNat) = (is.mergeSort (fun i j => decide (i ≤ j))).map ofNat := by
  refine (List.map_mergeSort ?_).symm
  intro i _ j _
  simp [ofNat, le]

/-- Numbered nodes that differ are sorted into an ascending list of numbers. -/
theorem Label.exists_sort {n : Nat} {members : List Label} (nodup : members.Nodup)
    (nodes : ∀ v ∈ members, v ∈ upTo n) :
    ∃ ns : List Nat, ns.Pairwise (· < ·) ∧ sort members = ns.map ofNat := by
  obtain ⟨is, rfl⟩ : members ∈ Set.range (List.map ofNat) := by
    rw [Set.range_list_map]
    intro v hv
    obtain ⟨i, _, rfl⟩ := mem_upTo.mp (nodes v hv)
    exact ⟨i, rfl⟩
  refine ⟨_, ?_, sort_map_ofNat is⟩
  have sorted : (is.mergeSort (fun i j => decide (i ≤ j))).Pairwise (· ≤ ·) := by
    refine (List.pairwise_mergeSort ?_ ?_ is).imp fun le => by simpa using le
    · simp only [decide_eq_true_eq]
      omega
    · intro i j
      simp only [Bool.or_eq_true, decide_eq_true_eq]
      omega
  have different : (is.mergeSort (fun i j => decide (i ≤ j))).Nodup :=
    (List.mergeSort_perm is _).nodup_iff.mpr (List.Nodup.of_map _ nodup)
  exact (sorted.and different).imp fun ⟨le, ne⟩ => Nat.lt_of_le_of_ne le ne

theorem Label.sort?_map_ofNat {ns : List Nat} (ascending : ns.Pairwise (· < ·)) :
    sort? (ns.map ofNat) = some (ns.map ofNat) := by
  have plain : comparable (ns.map ofNat) = true := by
    apply comparable_of_isInt
    intro v hv
    obtain ⟨i, _, rfl⟩ := List.mem_map.mp hv
    rfl
  rw [sort?, if_pos plain, sort_map_ofNat, List.mergeSort_of_pairwise]
  exact ascending.imp fun lt => decide_eq_true (Nat.le_of_lt lt)

namespace Graph

/-- The nodes that the report lists for a graph, in their order. -/
def listed (g : Graph) (mode : Mode) (k : Option Int) : List Label :=
  Label.sort ((g.solve mode k true (.zero false)).result.toOption.getD [])

/-- Neither the repair nor the clock changes what is found. -/
theorem result_solve (g : Graph) (mode : Mode) (k : Option Int) (repair : Bool) (seconds : Double) :
    (g.solve mode k repair seconds).result = (g.solve mode k true (.zero false)).result := by
  cases mode with
  | cover =>
    cases k with
    | none => simp only [solve, coverLogged, members_minimumCover]
    | some b =>
      simp only [solve, coverAtMostLogged]
      cases g.coverAtMost b <;> rfl
  | clique =>
    cases k with
    | none => rfl
    | some b =>
      simp only [solve, cliqueAtLeastLogged]
      cases g.cliqueAtLeast b with
      | error fault => rfl
      | ok found => cases found <;> rfl

theorem isInt_of_nodes {n : Nat} (nodes : g.nodes = Label.upTo n) :
    ∀ v ∈ g.nodes, v.isInt = true := by
  intro v hv
  rw [nodes] at hv
  obtain ⟨i, _, rfl⟩ := Label.mem_upTo.mp hv
  rfl

/-- A search finds these members, which are listed by their numbers. -/
structure Lists (g : Graph) (mode : Mode) (k : Option Int) (members : List Label) (ns : List Nat) :
    Prop where
  found : (g.solve mode k true (.zero false)).result = .ok members
  sorted : Label.sort? members = some (g.listed mode k)
  perm : (g.listed mode k).Perm members
  ascending : ns.Pairwise (· < ·)
  numbers : g.listed mode k = ns.map .ofNat
  keeps : Keeps mode k g members

theorem exists_lists {n : Nat} (mode : Mode) (nodes : g.nodes = Label.upTo n)
    (bound : ∀ b ∈ k, 0 ≤ b) : ∃ members ns, g.Lists mode k members ns := by
  have labels := isInt_of_nodes nodes
  obtain ⟨members, found, keeps⟩ := g.solve_keeps mode true (.zero false) bound labels
  have listed : g.listed mode k = Label.sort members := by
    rw [listed, found]
    rfl
  obtain ⟨ns, ascending, numbers⟩ :=
    Label.exists_sort keeps.fits.nodup (nodes ▸ keeps.fits.nodes)
  have plain : Label.comparable members = true :=
    Label.comparable_of_isInt fun v hv => labels v (keeps.fits.nodes v hv)
  refine ⟨members, ns, found, ?_, ?_, ascending, listed.trans numbers, keeps⟩
  · rw [Label.sort?, if_pos plain, listed]
  · rw [listed]
    exact List.mergeSort_perm members Label.le

end Graph

/-! ## The line on an instance -/

instance (mode : Mode) (size : Nat) (bound : Int) : Decidable (mode.Reaches size bound) :=
  match mode with
  | .cover => inferInstanceAs (Decidable ((size : Int) ≤ bound))
  | .clique => inferInstanceAs (Decidable (bound ≤ (size : Int)))

/-- The text on a graph and the nodes that answer for it, when no time has passed. -/
def answerText (index : Int) (g : Graph) (members : List Label) : String :=
  let place := s!"G{ofInteger index}({ofNatural g.order}, {ofNatural g.edgeCount})"
  let set := "\x7b" ++ String.intercalate ", " (members.map Label.bare) ++ "\x7d"
  s!"{place} (size={ofNatural members.length}, ms=0) {set}"

/-- What stands after an answer that does not meet the bound. -/
def missedMark : String := " (target not met)"

/-- The line on an instance. -/
def reportLine (mode : Mode) (k : Option Int) (i : Instance String Graph) : String :=
  match i.content with
  | .error message => s!"G{ofInteger i.index} skipped: {message}"
  | .ok g =>
    let text := answerText i.index g (g.listed mode k)
    if k.all (mode.Reaches (g.listed mode k).length ·) then text else text ++ missedMark

theorem Double.magnitude_zero (exponent : Int) : (magnitude 0 exponent).1 = 0 := by
  unfold magnitude scale
  split <;> simp

theorem Double.mulNat_zero (negative : Bool) (n : Nat) :
    (zero negative).mulNat n = zero negative := by
  have none := magnitude_zero (-1074)
  simp only [zero, mulNat, Nat.zero_mul, nearest, none, ↓reduceIte]

theorem Double.truncate_zero (negative : Bool) (exponent : Int) :
    truncate negative 0 exponent = 0 := by
  simp [truncate, magnitude_zero]

theorem graphLine_still {ns : List Nat} (index : Int) (g : Graph) (ascending : ns.Pairwise (· < ·)) :
    graphLine index g.order g.edgeCount (ns.map .ofNat) (.real ((Double.zero false).mulNat 1000)) =
      .ok (answerText index g (ns.map .ofNat)) := by
  have none : (Number.real ((Double.zero false).mulNat 1000)).truncate = .ok 0 := by
    rw [Double.mulNat_zero]
    exact congrArg Except.ok (Double.truncate_zero false _)
  have text (front : String) : front ++ ", ms=" ++ ofInteger 0 ++ ") " = front ++ ", ms=0) " := by
    apply String.toList_inj.mp
    simp only [String.toList_append, List.append_assoc]
    exact congrArg (front.toList ++ ·) (by decide)
  simp only [graphLine, setText, Label.sort?_map_ofNat ascending, none, bind, Except.bind]
  exact congrArg (fun front => Except.ok (front ++ _)) (text _)

namespace GraphTask

variable {task : GraphTask} {solver : Solver} {s : GraphSolution}

theorem meets_eq (task : GraphTask) (size : Nat) :
    task.meets size = task.k.all (task.mode.Reaches size ·) := by
  cases bound : task.k with
  | none => simp [meets, bound]
  | some b =>
    rw [Bool.eq_iff_iff, meets_iff bound size]
    simp

/-- What the batch says about a graph is the line on it. -/
theorem solutionLine_solve {n : Nat} (still : task.seconds = .zero false)
    (bound : ∀ b ∈ task.k, 0 ≤ b) (nodes : g.nodes = Label.upTo n)
    (h : (task.solve solver g).result = .ok s) (index : Int) :
    solutionLine ⟨index, .ok s⟩ = .ok (reportLine task.mode task.k ⟨index, .ok g⟩) := by
  obtain ⟨members, ns, lists⟩ := Graph.exists_lists task.mode nodes bound
  have found := (g.result_solve _ _ task.repair task.seconds).trans lists.found
  unfold solve at h
  simp only [found, lists.sorted, Except.ok.injEq] at h
  subst h
  have text := graphLine_still index g lists.ascending
  rw [← lists.numbers] at text
  simp only [solutionLine, reportLine, still, text, meets_eq, ← lists.perm.length_eq, bind,
    Except.bind]
  rfl

/-- **The lines of a batch are the lines on its instances.** -/
theorem solveAll_reported {instances : List (Instance String Graph)} (solver : Solver)
    (still : task.seconds = .zero false) (bound : ∀ b ∈ task.k, 0 ≤ b)
    (nodes : ∀ i ∈ instances, ∀ g, i.content = .ok g → ∃ n, g.nodes = Label.upTo n) :
    ∃ results, (task.solveAll solver instances).result = .ok results ∧
      List.Forall₂ (fun i result => solutionLine result = .ok (reportLine task.mode task.k i))
        instances results := by
  have labels : ∀ i ∈ instances, ∀ g, i.content = .ok g → ∀ v ∈ g.nodes, v.isInt = true := by
    intro i hi g graph
    obtain ⟨n, numbered⟩ := nodes i hi g graph
    exact Graph.isInt_of_nodes numbered
  obtain ⟨results, solved, _⟩ := task.solveAll_answers solver bound labels
  refine ⟨results, solved, ?_⟩
  have own := (List.forall₂_and_left _ _).mpr ⟨nodes, solveAll_solved solved⟩
  refine own.imp ?_
  rintro _ _ ⟨nodes, answer⟩
  cases answer with
  | failed index message => rfl
  | solved index solved =>
    obtain ⟨n, numbered⟩ := nodes _ rfl
    exact solutionLine_solve still bound numbered solved index

end GraphTask

/-! ## What a line says -/

/-- The line on a graph lists these nodes: they are what the search finds, in ascending order. It has
the counts of the graph, and the mark exactly if the bound cannot be met. -/
structure Shows (mode : Mode) (k : Option Int) (index : Int) (g : Graph) (ns : List Nat)
    (line : String) : Prop where
  ascending : ns.Pairwise (· < ·)
  found : ∃ members, (g.solve mode k true (.zero false)).result = .ok members ∧
    members.Perm (ns.map .ofNat)
  keeps : Keeps mode k g (ns.map .ofNat)
  text : line = answerText index g (ns.map .ofNat) ∨
    line = answerText index g (ns.map .ofNat) ++ missedMark
  mark : missedMark.toList <:+ line.toList ↔
    ∃ b ∈ k, ¬ ∃ others, mode.Fits g others ∧ mode.Reaches others.length b

/-- An answer ends in a brace and not in the mark. -/
theorem not_missedMark_suffix (index : Int) (g : Graph) (members : List Label) :
    ¬ missedMark.toList <:+ (answerText index g members).toList := by
  obtain ⟨text, ends⟩ : ∃ text, answerText index g members = text ++ "\x7d" :=
    ⟨_, String.append_assoc.symm⟩
  rw [ends, String.toList_append]
  rintro ⟨front, same⟩
  have last := congrArg List.getLast? same
  rw [List.getLast?_append_of_ne_nil _ (by decide),
    List.getLast?_append_of_ne_nil _ (by decide)] at last
  exact absurd last (by decide)

theorem reportLine_shows {n : Nat} (mode : Mode) (nodes : g.nodes = Label.upTo n)
    (bound : ∀ b ∈ k, 0 ≤ b) (index : Int) :
    ∃ ns, Shows mode k index g ns (reportLine mode k ⟨index, .ok g⟩) := by
  obtain ⟨members, ns, lists⟩ := Graph.exists_lists mode nodes bound
  have same := lists.perm
  rw [lists.numbers] at same
  have keeps := lists.keeps.perm same
  refine ⟨ns, lists.ascending, ⟨members, lists.found, same.symm⟩, keeps, ?_, ?_⟩
  · simp only [reportLine, lists.numbers]
    split
    · exact .inl rfl
    · exact .inr rfl
  · simp only [reportLine, lists.numbers]
    split
    · rename_i met
      simp only [Option.all_eq_true, decide_eq_true_eq] at met
      refine iff_of_false (not_missedMark_suffix index g _) ?_
      rintro ⟨b, hb, impossible⟩
      exact impossible ((keeps.met b hb).mp (met b hb))
    · rename_i missed
      apply iff_of_true
      · rw [String.toList_append]
        exact List.suffix_append _ _
      · simp only [Option.all_eq_true, decide_eq_true_eq, not_forall] at missed
        obtain ⟨b, hb, short⟩ := missed
        exact ⟨b, hb, fun reachable => short ((keeps.met b hb).mpr reachable)⟩

theorem oneLine_answerText (index : Int) (g : Graph) (ns : List Nat) :
    OneLine (answerText index g (ns.map .ofNat)) := by
  have nodes : OneLine (String.intercalate ", " ((ns.map Label.ofNat).map Label.bare)) := by
    apply oneLine_intercalate (by decide)
    intro part hp
    simp only [List.map_map, List.mem_map, Function.comp_apply] at hp
    obtain ⟨i, _, rfl⟩ := hp
    exact oneLine_ofInteger i
  unfold answerText
  repeat apply OneLine.append
  · decide
  · exact oneLine_ofInteger index
  · decide
  · exact oneLine_ofNatural g.order
  · decide
  · exact oneLine_ofNatural g.edgeCount
  · decide
  · decide
  · exact oneLine_ofNatural _
  · decide
  · exact (OneLine.append (by decide) nodes).append (by decide)

/-- **The lines on the instances of a file are single lines.** -/
theorem oneLine_reportLine {item : Instance String Graph} (h : item ∈ readGraphs lines)
    (bound : ∀ b ∈ k, 0 ≤ b) : OneLine (reportLine mode k item) := by
  obtain ⟨index, content⟩ := item
  cases content with
  | error message =>
    have detail : OneLine message := oneLine_of_mem_readGraphs h rfl
    unfold reportLine
    repeat apply OneLine.append
    · decide
    · exact oneLine_ofInteger index
    · decide
    · exact detail
  | ok g =>
    obtain ⟨n, nodes⟩ := nodes_of_mem_readGraphs h rfl
    obtain ⟨ns, shows⟩ := reportLine_shows mode nodes bound index
    rcases shows.text with plain | marked
    · rw [plain]
      exact oneLine_answerText index g ns
    · rw [marked]
      exact (oneLine_answerText index g ns).append (by decide)

end VertexCover
