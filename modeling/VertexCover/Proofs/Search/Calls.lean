import VertexCover.Proofs.Search.Optimum

/-!
# The calls of a cover search

All branches of a search share one cover. A visit takes its vertex out, lets the later candidates be
visited and puts the vertex back; covers are recorded on the way. Here these calls are listed, each
with the states at its entry and at its exit:

* `calls`: the calls of a sweep, in the order in which they begin; cuts are listed too;
* `calls_runs`, `lasts_of_mem_calls`: performed one after the other, they make up the sweep, and a
  visit is over when the calls below it are;
* `Runs.counted`: there is one for every branch, leaf and cut that the search counts;
* `orderly_of_mem_calls`: both states of every call are sound, and a visit comes back to the cover it
  started from, in which all candidates from its own on are present;
* `explore_calls`: the same for the searches of a graph.
-/

namespace VertexCover

namespace Search

/-- What a search does to its state. A visit is named by the position of its candidate. -/
inductive Action where
  | visit (position : Nat)
  | exclude (v : Nat)
  | reinstate (v : Nat)
  | record
  | cut
deriving DecidableEq, Repr

/-- An action with the states at its entry and at its exit. -/
structure Call where
  action : Action
  entry : State
  exit : State
deriving DecidableEq, Repr

variable {adjacency : List (List Nat)} {bounded : Bool} {candidates rest : List Nat}
  {v position first : Nat} {s t u : State} {c : Call} {below made later : List Call}

/-! ## The list of calls -/

/-- The calls below a vertex that has been taken out; `below` are those of the later candidates, if
they are visited. -/
def descendCalls (bounded : Bool) (rest : List Nat) (s : State) (below : List Call) : List Call :=
  if rest.isEmpty then [⟨.record, s, s.record⟩]
  else if bounded && s.hopeless rest.length then [⟨.cut, s, s.cut⟩]
  else below

/-- The calls made by the visit of a candidate. -/
def visitCalls (adjacency : List (List Nat)) (bounded : Bool) (v : Nat) (rest : List Nat)
    (s : State) (below : List Call) : List Call :=
  if s.targetMet then []
  else if exposes adjacency s.cover v then [⟨.record, s.enter, s.enter.record⟩]
  else
    let inner := s.enter.exclude v
    let last := descend adjacency bounded rest inner
    ⟨.exclude v, s.enter, inner⟩ ::
      (descendCalls bounded rest inner below ++ [⟨.reinstate v, last, last.reinstate v⟩])

/-- The calls of a sweep over candidates, the first of which stands at the given position. -/
def calls (adjacency : List (List Nat)) (bounded : Bool) : Nat → List Nat → State → List Call
  | _, [], _ => []
  | position, v :: rest, s =>
    let below := calls adjacency bounded (position + 1) rest (s.enter.exclude v)
    let next := visit adjacency bounded v rest s
    ⟨.visit position, s, next⟩ :: (visitCalls adjacency bounded v rest s below ++
      calls adjacency bounded (position + 1) rest next)

/-! ## The calls make up the run -/

/-- What an action does at once; a visit counts as a branch unless the target is met. -/
def Action.perform : Action → State → State
  | .visit _, s => if s.targetMet then s else s.enter
  | .exclude v, s => s.exclude v
  | .reinstate v, s => s.reinstate v
  | .record, s => s.record
  | .cut, s => s.cut

/-- The calls begin one after the other, each in the state that the one before has left. -/
def Runs : State → List Call → State → Prop
  | s, [], t => t = s
  | s, c :: later, t => c.entry = s ∧ Runs (c.action.perform s) later t

theorem Runs.append (h : Runs s made t) (k : Runs t later u) : Runs s (made ++ later) u := by
  induction made generalizing s with
  | nil =>
    obtain rfl : t = s := h
    exact k
  | cons c made ih => exact ⟨h.1, ih h.2⟩

theorem descendCalls_runs (h : Runs s below (sweep adjacency bounded rest s)) :
    Runs s (descendCalls bounded rest s below) (descend adjacency bounded rest s) := by
  unfold descend descendCalls
  split
  · exact ⟨rfl, rfl⟩
  · split
    · exact ⟨rfl, rfl⟩
    · exact h

theorem visitCalls_runs (position : Nat) (t : State) (h : Runs (s.enter.exclude v) below
      (sweep adjacency bounded rest (s.enter.exclude v))) :
    Runs s (⟨.visit position, s, t⟩ :: visitCalls adjacency bounded v rest s below)
      (visit adjacency bounded v rest s) := by
  refine ⟨rfl, ?_⟩
  unfold visit visitCalls Action.perform
  by_cases met : s.targetMet = true
  · simp only [met, ↓reduceIte]
    rfl
  · simp only [met, Bool.false_eq_true, ↓reduceIte]
    by_cases exposed : exposes adjacency s.cover v = true
    · rw [if_pos exposed, if_pos exposed]
      exact ⟨rfl, rfl⟩
    · rw [if_neg exposed, if_neg exposed]
      exact ⟨rfl, (descendCalls_runs h).append ⟨rfl, rfl⟩⟩

/-- **A sweep is the run of its calls.** -/
theorem calls_runs (adjacency : List (List Nat)) (bounded : Bool) (position : Nat)
    (candidates : List Nat) (s : State) : Runs s (calls adjacency bounded position candidates s)
      (sweep adjacency bounded candidates s) := by
  induction candidates generalizing position s with
  | nil => rfl
  | cons v rest ih =>
    rw [sweep_cons, calls, ← List.cons_append]
    exact (visitCalls_runs position _ (ih _ _)).append (ih (position + 1) _)

/-- The visit goes on into a branch, since the target is not met. -/
def Call.isBranch (c : Call) : Bool :=
  match c.action with
  | .visit _ => !c.entry.targetMet
  | _ => false

/-- The counters of the second state have grown by the calls that make them grow. -/
structure Counted (s t : State) (made : List Call) : Prop where
  branches : t.branches = s.branches + made.countP Call.isBranch
  leaves : t.leaves = s.leaves + made.countP (·.action = .record)
  pruned : t.pruned = s.pruned + made.countP (·.action = .cut)

theorem Call.counted (c : Call) : Counted c.entry (c.action.perform c.entry) [c] := by
  obtain ⟨action, s, t⟩ := c
  cases action with
  | visit position =>
    by_cases met : s.targetMet = true
    · constructor <;> simp [Action.perform, Call.isBranch, met]
    · constructor <;> simp [Action.perform, Call.isBranch, met, State.enter]
  | exclude v => exact ⟨rfl, rfl, rfl⟩
  | reinstate v => exact ⟨rfl, rfl, rfl⟩
  | record =>
    obtain ⟨branches, leaves, pruned⟩ := record_counters s
    exact ⟨branches, leaves, pruned⟩
  | cut => exact ⟨rfl, rfl, rfl⟩

theorem Counted.trans (h : Counted s t made) (k : Counted t u later) :
    Counted s u (made ++ later) where
  branches := by rw [k.branches, h.branches, List.countP_append, Nat.add_assoc]
  leaves := by rw [k.leaves, h.leaves, List.countP_append, Nat.add_assoc]
  pruned := by rw [k.pruned, h.pruned, List.countP_append, Nat.add_assoc]

theorem Runs.counted (h : Runs s made t) : Counted s t made := by
  induction made generalizing s with
  | nil =>
    obtain rfl : t = s := h
    exact ⟨rfl, rfl, rfl⟩
  | cons c made ih =>
    obtain ⟨rfl, later⟩ := h
    exact c.counted.trans (ih later)

/-! ## What holds at every call -/

theorem mem_descendCalls (h : c ∈ descendCalls bounded rest s below) :
    c = ⟨.record, s, s.record⟩ ∨ c = ⟨.cut, s, s.cut⟩ ∨
      (c ∈ below ∧ descendCalls bounded rest s below = below) := by
  unfold descendCalls at h ⊢
  split at h
  · exact .inl (List.mem_singleton.mp h)
  · split at h
    · exact .inr (.inl (List.mem_singleton.mp h))
    · rename_i more hope
      rw [if_neg more, if_neg hope]
      exact .inr (.inr ⟨h, rfl⟩)

theorem mem_visitCalls (h : c ∈ visitCalls adjacency bounded v rest s below) :
    c = ⟨.record, s.enter, s.enter.record⟩ ∨
    (s.targetMet = false ∧ exposes adjacency s.cover v = false ∧
      (c = ⟨.exclude v, s.enter, s.enter.exclude v⟩ ∨
        (c ∈ descendCalls bounded rest (s.enter.exclude v) below ∧
          descendCalls bounded rest (s.enter.exclude v) below <:+:
            visitCalls adjacency bounded v rest s below) ∨
        c = ⟨.reinstate v, descend adjacency bounded rest (s.enter.exclude v),
          (descend adjacency bounded rest (s.enter.exclude v)).reinstate v⟩)) := by
  unfold visitCalls at h ⊢
  split at h
  · cases h
  · rename_i unmet
    split at h
    · exact .inl (List.mem_singleton.mp h)
    · rename_i free
      rw [if_neg unmet, if_neg free]
      refine .inr ⟨by simpa using unmet, by simpa using free, ?_⟩
      rw [List.mem_cons, List.mem_append, List.mem_singleton] at h
      rcases h with out | inside | back
      · exact .inl out
      · exact .inr (.inl ⟨inside, List.infix_cons (List.infix_append [] _ _)⟩)
      · exact .inr (.inr back)

/-- What can be called while a candidate is visited and after it. -/
theorem mem_calls_cons (h : c ∈ calls adjacency bounded position (v :: rest) s) :
    c = ⟨.visit position, s, visit adjacency bounded v rest s⟩ ∨
    c = ⟨.record, s.enter, s.enter.record⟩ ∨
    (s.targetMet = false ∧ exposes adjacency s.cover v = false ∧
      (c = ⟨.exclude v, s.enter, s.enter.exclude v⟩ ∨
        c = ⟨.record, s.enter.exclude v, (s.enter.exclude v).record⟩ ∨
        c = ⟨.cut, s.enter.exclude v, (s.enter.exclude v).cut⟩ ∨
        (c ∈ calls adjacency bounded (position + 1) rest (s.enter.exclude v) ∧
          calls adjacency bounded (position + 1) rest (s.enter.exclude v) <:+:
            calls adjacency bounded position (v :: rest) s) ∨
        c = ⟨.reinstate v, descend adjacency bounded rest (s.enter.exclude v),
          (descend adjacency bounded rest (s.enter.exclude v)).reinstate v⟩)) ∨
    c ∈ calls adjacency bounded (position + 1) rest (visit adjacency bounded v rest s) := by
  rw [calls] at h ⊢
  rw [List.mem_cons, List.mem_append] at h
  rcases h with here | made | later
  · exact .inl here
  · rcases mem_visitCalls made with ended | ⟨unmet, free, inside⟩
    · exact .inr (.inl ended)
    · refine .inr (.inr (.inl ⟨unmet, free, ?_⟩))
      rcases inside with out | ⟨inside, part⟩ | back
      · exact .inl out
      · rcases mem_descendCalls inside with record | cut | ⟨deeper, all⟩
        · exact .inr (.inl record)
        · exact .inr (.inr (.inl cut))
        · rw [all] at part
          exact .inr (.inr (.inr (.inl ⟨deeper, part.trans (List.infix_append [_] _ _)⟩)))
      · exact .inr (.inr (.inr (.inr back)))
  · exact .inr (.inr (.inr later))

/-- A call is over when the calls that follow it in its own run are. -/
theorem lasts_of_mem_calls (h : c ∈ calls adjacency bounded position candidates s) :
    ∃ inner, (c :: inner) <:+: calls adjacency bounded position candidates s ∧
      Runs c.entry (c :: inner) c.exit := by
  induction candidates generalizing position s with
  | nil => cases h
  | cons v rest ih =>
    -- All but the visits are over at once.
    have alone (exit : c.exit = c.action.perform c.entry) :
        ∃ inner, (c :: inner) <:+: calls adjacency bounded position (v :: rest) s ∧
          Runs c.entry (c :: inner) c.exit := by
      obtain ⟨before, after, whole⟩ := List.append_of_mem h
      exact ⟨[], ⟨before, after, by rw [whole, List.append_assoc]; rfl⟩, rfl, exit⟩
    rcases mem_calls_cons h with rfl | rfl | ⟨_, _, inside⟩ | later
    · refine ⟨_, ?_, visitCalls_runs position _ (calls_runs adjacency bounded (position + 1) rest _)⟩
      rw [calls]
      exact (List.prefix_append _ _).isInfix
    · exact alone rfl
    · rcases inside with rfl | rfl | rfl | ⟨deeper, part⟩ | rfl
      · exact alone rfl
      · exact alone rfl
      · exact alone rfl
      · obtain ⟨inner, here, runs⟩ := ih deeper
        exact ⟨inner, here.trans part, runs⟩
      · exact alone rfl
    · obtain ⟨inner, here, runs⟩ := ih later
      refine ⟨inner, here.trans ?_, runs⟩
      rw [calls, ← List.cons_append]
      exact (List.suffix_append _ _).isInfix

/-- Both states of the call are sound. A visit comes back to the cover it started from, and there all
candidates from its own position on are present; the first candidate stands at position `first`. -/
structure Call.Orderly (adjacency : List (List Nat)) (first : Nat) (candidates : List Nat)
    (c : Call) : Prop where
  entry : Sound adjacency c.entry
  exit : Sound adjacency c.exit
  returns : ∀ position, c.action = .visit position → Returns c.entry c.exit
  present : ∀ position, c.action = .visit position → first ≤ position ∧
    Present (candidates.drop (position - first)) c.entry

theorem Call.Orderly.cons (h : c.Orderly adjacency (first + 1) rest) :
    c.Orderly adjacency first (v :: rest) where
  entry := h.entry
  exit := h.exit
  returns := h.returns
  present := by
    intro position visited
    obtain ⟨later, present⟩ := h.present position visited
    refine ⟨by omega, ?_⟩
    have shift : position - first = position - (first + 1) + 1 := by omega
    rwa [shift, List.drop_succ_cons]

theorem Sound.enter (h : Sound adjacency s) : Sound adjacency s.enter :=
  ⟨h.cover, h.size, h.best, h.bestSize⟩

theorem Sound.cut (h : Sound adjacency s) : Sound adjacency s.cut :=
  ⟨h.cover, h.size, h.best, h.bestSize⟩

/-- **The calls of a sweep are orderly.** -/
theorem orderly_of_mem_calls (both : Undirected adjacency) (nodup : candidates.Nodup)
    (present : Present candidates s) (sound : Sound adjacency s)
    (h : c ∈ calls adjacency bounded first candidates s) : c.Orderly adjacency first candidates := by
  induction candidates generalizing first s with
  | nil => cases h
  | cons v rest ih =>
    obtain ⟨fresh, nodup⟩ := List.nodup_cons.mp nodup
    have hv : flag s.cover v = true := present v List.mem_cons_self
    have inner : Present rest (s.enter.exclude v) := Present.exclude (s := s.enter) present fresh
    have kept := sound_kept both
    have below : Returns _ (sweep adjacency bounded rest (s.enter.exclude v)) ∧ _ :=
      kept.sweep nodup inner
    have visited := kept.visit hv below
    -- Only visits have more to show than that their states are sound.
    have quiet {action : Action} {t u : State} (other : ∀ p, action ≠ .visit p)
        (ht : Sound adjacency t) (hu : Sound adjacency u) :
        Call.Orderly adjacency first (v :: rest) ⟨action, t, u⟩ :=
      ⟨ht, hu, fun p same => absurd same (other p), fun p same => absurd same (other p)⟩
    rcases mem_calls_cons h with rfl | rfl | ⟨unmet, free, inside⟩ | later
    · refine ⟨sound, visited.2 sound, fun _ _ => visited.1, ?_⟩
      rintro _ ⟨⟩
      rw [Nat.sub_self]
      exact ⟨Nat.le_refl _, present⟩
    · exact quiet (by simp) sound.enter sound.enter.record
    · have out : Sound adjacency (s.enter.exclude v) := sound.enter.exclude both hv free
      have ended := kept.descend (s := s.enter.exclude v) unmet below
      rcases inside with rfl | rfl | rfl | ⟨deeper, _⟩ | rfl
      · exact quiet (by simp) sound.enter out
      · exact quiet (by simp) out out.record
      · exact quiet (by simp) out out.cut
      · exact (ih nodup inner out deeper).cons
      · have back := kept.around (s := s.enter) hv free ended
        exact quiet (by simp) (ended.2 out) (back.2 sound.enter)
    · exact (ih nodup (present.tail visited.1.cover) (visited.2 sound) later).cons

end Search

namespace Graph
open Search

/-! ## The searches of a graph -/

/-- The calls of a search on the graph. -/
def calls (g : Graph) (bounded : Bool) (target : Option Int) : List Call :=
  Search.calls g.positions bounded 0 g.candidates (.start g.initialCover target)

/-- The state explores a vertex cover without isolated nodes, its best cover is a vertex cover, and
both have the sizes on record. -/
structure HoldsCovers (g : Graph) (s : State) : Prop where
  length : s.cover.length = g.order
  cover : g.IsVertexCover (g.select s.cover)
  touched : ∀ v ∈ g.select s.cover, ∃ u, g.Adj v u
  size : s.size = count s.cover
  bestLength : s.best.length = g.order
  best : g.IsVertexCover (g.select s.best)
  bestSize : s.bestSize = count s.best

theorem holdsCovers_of_sound {g : Graph} {s : State} (h : Sound g.positions s) :
    g.HoldsCovers s where
  length := by rw [h.cover.length, length_positions]
  cover := isVertexCover_select h.cover.covers
  touched := fun _ => touched_select h.cover
  size := h.size
  bestLength := by rw [h.best.length, length_positions]
  best := isVertexCover_select h.best.covers
  bestSize := h.bestSize

/-- **Backtracking keeps the covers.** A search is the run of its calls, and every call ends when the
run of the calls below it does. At its entry and at its exit the explored cover is a vertex cover
without isolated nodes, the best one is a vertex cover, and their sizes are those on record. When a
candidate is visited, every candidate that is taken out stands at an earlier position, and the visit
ends with the cover and the size it started with and with a best size that is no larger. The visits
that are not over at once are the branches that the search counts, the records are its leaves, and
its cuts are listed too. -/
theorem explore_calls (g : Graph) (bounded : Bool) (target : Option Int) :
    Runs (.start g.initialCover target) (g.calls bounded target) (g.explore bounded target) ∧
    (∀ c ∈ g.calls bounded target,
      (∃ inner, (c :: inner) <:+: g.calls bounded target ∧ Runs c.entry (c :: inner) c.exit) ∧
      g.HoldsCovers c.entry ∧ g.HoldsCovers c.exit ∧
      ∀ position, c.action = .visit position →
        (∀ i v, g.candidates[i]? = some v → flag c.entry.cover v = false → i < position) ∧
        c.exit.cover = c.entry.cover ∧ c.exit.size = c.entry.size ∧
        c.exit.bestSize ≤ c.entry.bestSize) ∧
    (g.explore bounded target).branches = (g.calls bounded target).countP Call.isBranch ∧
    (g.explore bounded target).leaves = (g.calls bounded target).countP (·.action = .record) ∧
    (g.explore bounded target).pruned = (g.calls bounded target).countP (·.action = .cut) := by
  have run := calls_runs g.positions bounded 0 g.candidates (.start g.initialCover target)
  refine ⟨run, ?_, run.counted.branches.trans (Nat.zero_add _),
    run.counted.leaves.trans (Nat.zero_add _), run.counted.pruned.trans (Nat.zero_add _)⟩
  intro c made
  have orderly := orderly_of_mem_calls g.undirected_positions g.candidates_nodup
    (g.present_start target) (g.sound_start target) made
  refine ⟨lasts_of_mem_calls made, holdsCovers_of_sound orderly.entry,
    holdsCovers_of_sound orderly.exit, ?_⟩
  intro position visited
  obtain ⟨cover, size, _, bestSize⟩ := orderly.returns position visited
  refine ⟨?_, cover, size, bestSize⟩
  intro i v listed out
  by_contra late
  have later : v ∈ g.candidates.drop (position - 0) := by
    apply List.mem_of_getElem? (i := i - position)
    rw [List.getElem?_drop, ← listed]
    congr 1
    omega
  have there := (orderly.present position visited).2 v later
  rw [out] at there
  cases there

example : (((empty 2).insertEdge (.int 0) (.int 1)).calls false none).map Call.action =
    [.visit 0, .exclude 0, .visit 1, .record, .reinstate 0,
      .visit 1, .exclude 1, .record, .reinstate 1] := by decide

end Graph

end VertexCover
