import VertexCover.Decimal.Number
import VertexCover.Decimal.Shortest
import VertexCover.Fault

/-! Log entries.

The operations return what they have to say as a list of entries, in the order in which it was said;
nothing is written while they run. -/
namespace VertexCover.Log

/-- How important an entry is, the least important first. -/
inductive Level where
  | debug
  | info
  | warning
deriving DecidableEq, Repr

/-- The name a level is written with. -/
def Level.name : Level → String
  | .debug => "DEBUG"
  | .info => "INFO"
  | .warning => "WARNING"

/-- The place of a level in the order of importance. -/
def Level.rank : Level → Nat
  | .debug => 10
  | .info => 20
  | .warning => 30

/-- The part of the program an entry comes from. -/
inductive Source where
  | search
  | clique
  | formula
  | instances
  | suite
  | command
deriving DecidableEq, Repr

/-- The full name of a source. -/
def Source.name : Source → String
  | .search => "npreduce.reductions.utils"
  | .clique => "npreduce.reductions.clique_to_vertex_cover"
  | .formula => "npreduce.reductions.cnf_to_vertex_cover"
  | .instances => "npreduce.data.data_loader"
  | .suite => "npreduce.generate_test_graphs"
  | .command => "npreduce.cli"

/-- One thing said by the program. -/
structure Entry where
  level : Level
  source : Source
  message : String
deriving DecidableEq, Repr

/-- An entry with its level and source. -/
def Entry.full (entry : Entry) : String :=
  s!"{entry.level.name} {entry.source.name} {entry.message}"

/-- An entry as it is shown on the console. -/
def Entry.brief (entry : Entry) : String := s!"[{entry.level.name}] {entry.message}"

/-- The entry of a step that took so many seconds. -/
def took (name : String) (seconds : Double) : Entry :=
  ⟨.debug, .search, s!"[{name}] took {seconds.fixed 4} seconds"⟩

/-- The seconds between two readings of a clock. -/
def elapsed (start stop : Number) : Except Fault Double :=
  match (stop.sub? start).bind Number.toDouble? with
  | none => .error .integerTooLarge
  | some seconds => .ok seconds

/-- A value with the seconds between two readings of a clock and the entry of the step that made it. -/
def timed {α : Type} (name : String) (start stop : Number) (value : α) :
    Except Fault (α × Double × Entry) := do
  let seconds ← elapsed start stop
  return (value, seconds, took name seconds)

/-- Stores a counter: a new one at the end, a known one in its place. -/
def store (counters : List (String × Int)) (key : String) (value : Int) : List (String × Int) :=
  if counters.any fun counter => counter.1 == key then
    counters.map fun counter => if counter.1 == key then (key, value) else counter
  else counters ++ [(key, value)]

/-- The counters that are left when the listed ones are stored in turn. -/
def storeAll (entries : List (String × Int)) : List (String × Int) :=
  entries.foldl (fun counters entry => store counters entry.1 entry.2) []

/-- The entry of a finished search with its counters; an underscore in a key shows as a blank. -/
def summary (name : String) (counters : List (String × Int)) : Entry :=
  let details := counters.map fun (key, value) =>
    let key := String.ofList (key.toList.map fun c => if c = '_' then ' ' else c)
    s!"{key}={Text.ofInteger value}"
  ⟨.info, .search, s!"[{name}] " ++ String.intercalate ", " details⟩

end VertexCover.Log
