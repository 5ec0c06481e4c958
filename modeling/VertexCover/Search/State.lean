import VertexCover.Fault

/-! The state of one cover search.

A state holds the cover being explored, the best cover so far and the counters. `exclude`,
`reinstate` and `record` are the moves of the search; they can also be made one by one, on vertices
named by an index that may count from the end. -/
namespace VertexCover

/-- The position meant by an index into `length` items; a negative index counts from the end. -/
def resolveIndex (length : Nat) (index : Int) : Option Nat :=
  if 0 ≤ index then
    if index < length then some index.toNat else none
  else if -(length : Int) ≤ index then some (index + length).toNat
  else none

namespace Search

/-- The state of a search over membership flags. -/
structure State where
  /-- The flags of the cover being explored. -/
  cover : List Bool
  /-- The number of vertices in that cover. -/
  size : Int
  /-- The flags of the best cover so far. -/
  best : List Bool
  /-- The number of vertices in the best cover. -/
  bestSize : Int
  /-- The covers that were best before, the latest first. -/
  earlier : List (List Bool)
  /-- The size at which the search may stop. -/
  target : Option Int
  branches : Nat
  leaves : Nat
  pruned : Nat
deriving DecidableEq, Repr

/-- The number of flags that are set. -/
def count (flags : List Bool) : Nat := flags.countP id

namespace State

/-- The state in which a search from the given cover starts. -/
def start (cover : List Bool) (target : Option Int) : State where
  cover
  size := count cover
  best := cover
  bestSize := count cover
  earlier := []
  target
  branches := 0
  leaves := 0
  pruned := 0

/-- The best cover is small enough for the search to stop. -/
def targetMet (s : State) : Bool :=
  match s.target with
  | none => false
  | some target => s.bestSize ≤ target

/-- Takes a vertex out of the cover. -/
def exclude (s : State) (v : Nat) : State :=
  { s with cover := s.cover.set v false, size := s.size - 1 }

/-- Puts a vertex back into the cover. -/
def reinstate (s : State) (v : Nat) : State :=
  { s with cover := s.cover.set v true, size := s.size + 1 }

/-- Ends a branch: the cover becomes the best one if it is strictly smaller. -/
def record (s : State) : State :=
  let s := { s with leaves := s.leaves + 1 }
  if s.size < s.bestSize then
    { s with best := s.cover, bestSize := s.size, earlier := s.best :: s.earlier }
  else s

/-- Opens a branch. -/
def enter (s : State) : State := { s with branches := s.branches + 1 }

/-- Gives up a branch. -/
def cut (s : State) : State := { s with pruned := s.pruned + 1 }

/-- Taking out all of the remaining vertices would not give a better cover. -/
def hopeless (s : State) (remaining : Nat) : Bool := s.bestSize ≤ s.size - remaining

end State

/-- One move made by hand. -/
inductive Move where
  | exclude (index : Int)
  | reinstate (index : Int)
  | record
deriving DecidableEq, Repr

/-- Makes a move; an index outside the cover is refused. -/
def State.play (s : State) : Move → Except Fault State
  | .exclude index =>
    match resolveIndex s.cover.length index with
    | some v => .ok (s.exclude v)
    | none => .error .badIndex
  | .reinstate index =>
    match resolveIndex s.cover.length index with
    | some v => .ok (s.reinstate v)
    | none => .error .badIndex
  | .record => .ok s.record

/-- Makes the moves in turn and gives every state on the way with the outcome of its move; a refused
move changes nothing. -/
def State.playAll (s : State) : List Move → List (State × Option Fault)
  | [] => []
  | move :: moves =>
    match s.play move with
    | .ok next => (next, none) :: next.playAll moves
    | .error fault => (s, some fault) :: s.playAll moves

end Search

end VertexCover
