import VertexCover.Search.Repair
import VertexCover.Log

/-! Minimum and bounded vertex covers of a graph.

`minimumCover` finds a smallest cover; `coverAtMost` stops at the first cover that is small enough
and falls back to a smallest one. A `Searcher` answers several requests on one graph and remembers
the counters of its latest search. -/
namespace VertexCover

/-- The counters of a finished search; `size` is the size of the cover as it was found. -/
structure Stats where
  size : Int
  branches : Nat
  leaves : Nat
  pruned : Nat
  /-- The bound of a bounded search. -/
  bound : Option Int
deriving DecidableEq, Repr

/-- The counters by name, in the order in which they are shown. -/
def Stats.counters (s : Stats) : List (String × Int) :=
  [("size", s.size), ("branches", s.branches), ("leaves", s.leaves), ("pruned", s.pruned)] ++
    match s.bound with
    | none => []
    | some k => [("k", k)]

/-- The counters of a search state. -/
def Search.State.stats (s : Search.State) (bound : Option Int) : Stats where
  size := s.bestSize
  branches := s.branches
  leaves := s.leaves
  pruned := s.pruned
  bound

/-- A cover with the counters of the search that found it. -/
structure Found where
  /-- The members in node order. -/
  members : List Label
  stats : Stats
deriving DecidableEq, Repr

/-- What a finished search has to say. -/
def Found.log (found : Found) (seconds : Double) : List Log.Entry :=
  let name := if found.stats.bound.isSome then "k vertex cover" else "minimum vertex cover"
  [Log.summary name found.stats.counters, Log.took name seconds]

namespace Graph

/-- The positions of the nodes with an edge. -/
def candidates (g : Graph) : List Nat :=
  (g.positions.zipIdx.filter fun (around, _) => !around.isEmpty).map Prod.snd

/-- The cover that holds every node with an edge. -/
def initialCover (g : Graph) : List Bool := g.positions.map fun around => !around.isEmpty

/-- The final state of a search on the graph. -/
def explore (g : Graph) (bounded : Bool) (target : Option Int) : Search.State :=
  Search.sweep g.positions bounded g.candidates (.start g.initialCover target)

/-- A smallest vertex cover, with or without the repair pass. -/
def minimumCover (g : Graph) (repair : Bool) : Found :=
  let s := g.explore true none
  { members := g.select (if repair then Search.repair g.positions s.best else s.best)
    stats := s.stats none }

/-- The first vertex cover found with at most `k` nodes, or a smallest one if there is none. -/
def boundedCover (g : Graph) (k : Int) : Found :=
  let s := g.explore true (some k)
  { members := g.select s.best, stats := s.stats (some k) }

/-- The bounded search, for bounds that are not negative. -/
def coverAtMost (g : Graph) (k : Int) : Except Fault Found :=
  if k < 0 then .error (.negativeBound k) else .ok (g.boundedCover k)

end Graph

/-- A graph on which several searches are run. -/
structure Searcher where
  graph : Graph
  repair : Bool
  /-- The counters of the latest search. -/
  latest : Option Stats

/-- A request to a searcher. -/
inductive Request where
  | minimum
  | atMost (k : Int)
  | initial
deriving DecidableEq, Repr

/-- The answer to a request. -/
inductive Reply where
  | cover (members : List Label)
  | flags (flags : List Bool)
deriving DecidableEq, Repr

/-- Answers one request; a search leaves its counters behind. -/
def Searcher.ask (s : Searcher) : Request → Except Fault Reply × Searcher
  | .minimum =>
    let found := s.graph.minimumCover s.repair
    (.ok (.cover found.members), { s with latest := some found.stats })
  | .atMost k =>
    match s.graph.coverAtMost k with
    | .error fault => (.error fault, s)
    | .ok found => (.ok (.cover found.members), { s with latest := some found.stats })
  | .initial => (.ok (.flags s.graph.initialCover), s)

/-- Answers requests in turn, each with the searcher as it is afterwards. -/
def Searcher.askAll (s : Searcher) : List Request → List (Except Fault Reply × Searcher)
  | [] => []
  | request :: requests =>
    let (reply, next) := s.ask request
    (reply, next) :: next.askAll requests

end VertexCover
