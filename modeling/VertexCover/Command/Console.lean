import VertexCover.Command.Options
import VertexCover.FileTree
import VertexCover.Log

/-! What a program run leaves behind. -/
namespace VertexCover.Command

/-- The lines a program has written, what it has logged, and the files as they are. -/
structure Console where
  out : List String
  log : List Log.Entry
  tree : FileTree

namespace Console

/-- Nothing written yet. -/
def start (tree : FileTree) : Console := ⟨[], [], tree⟩

/-- Writes lines. -/
def print (c : Console) (lines : List String) : Console := { c with out := c.out ++ lines }

/-- Logs entries. -/
def note (c : Console) (entries : List Log.Entry) : Console := { c with log := c.log ++ entries }

end Console

/-- How a run ends. -/
inductive Ending where
  | exit (status : Nat)
  /-- A failure that the program does not handle. -/
  | failed (fault : Fault)
deriving DecidableEq, Repr

/-- The outcome of a run: its texts and its files. -/
structure Run where
  ending : Ending
  out : String
  err : String
  tree : FileTree

/-- Lines as a text. -/
def linesText (lines : List String) : String := String.join (lines.map (· ++ "\n"))

/-- The log lines from a level on, as they are shown on the console. -/
def logLines (level : Log.Level) (log : List Log.Entry) : List String :=
  (log.filter fun entry => level.rank ≤ entry.level.rank).map Log.Entry.brief

/-- The run of a program that refuses its arguments. -/
def Run.refused (refusal : Refusal) (tree : FileTree) : Run where
  ending := .exit (if refusal.line.isSome then 2 else 0)
  out := ""
  err := linesText refusal.line.toList
  tree

end VertexCover.Command
