import VertexCover.Command.Generate
import VertexCover.Command.Solve

/-! The command line.

`generate` as the first argument starts the program that writes suites; all other arguments go to the
program that solves the instances of a file. A run works on a picture of the places that its
arguments name, and what it has changed there is written back at its end. Every step is reported to
take no time, so that the same instances give the same report. A figure is stored as its words. -/
namespace VertexCover.Command

/-- The places that lie on the way to a path, the first ones first. -/
def placesTo (path : String) : List Place :=
  (List.range (pathParts path).length).map fun i =>
    ((pathParts path).take (i + 1)).foldl Place.step (startOf path)

/-- The paths that the arguments of the program name. -/
def Order.paths (order : Order) : List String :=
  order.file :: (order.settings.csv.toList ++ order.settings.plotDir.toList)

/-- The path of a place, as the system takes it. -/
def placePath : Place → String
  | "/" :: names => Path.text ⟨"/", names⟩
  | names => Path.text ⟨"", names⟩

/-- What stands at a place: what is there and cannot be read is a directory. -/
def look (place : Place) : IO (Option FileEntry) := do
  try
    return some (.file (← IO.FS.readBinFile (placePath place)))
  catch
    | .noFileOrDirectory .. => return none
    | _ => return some .directory

/-- The picture of the places on the way to the paths. -/
def picture (paths : List String) : IO FileTree := do
  let mut tree := FileTree.empty
  for place in (paths.flatMap placesTo).eraseDups do
    if let some entry ← look place then
      tree := tree.put place entry
  return tree

/-- Writes an entry, unless it is as it was. -/
def restore (before : FileTree) (place : Place) (entry : FileEntry) : IO Unit :=
  match entry, before.entry? place with
  | .directory, some .directory => return
  | .directory, _ => IO.FS.createDirAll (placePath place)
  | .file content, some (.file old) =>
    if content == old then return else IO.FS.writeBinFile (placePath place) content
  | .file content, _ => IO.FS.writeBinFile (placePath place) content
  | .figure figure, _ =>
    let words := figure.title :: (figure.legend.getD [] ++ figure.labels)
    IO.FS.writeFile (placePath place) (linesText words)

/-- Runs a program on the picture of the paths it names. -/
def perform (paths : List String) (program : FileTree → Run) : IO UInt32 := do
  let before ← picture paths
  let run := program before
  for (place, entry) in run.tree.entries.reverse do
    restore before place entry
  (← IO.getStdout).putStr run.out
  (← IO.getStderr).putStr run.err
  match run.ending with
  | .exit status => return status.toUInt32
  | .failed fault =>
    (← IO.getStderr).putStrLn (fault.message.getD "The file is not a text.")
    return 1

end VertexCover.Command

open VertexCover VertexCover.Command in
/-- The entry point. -/
def main (args : List String) : IO UInt32 :=
  match args with
  | "generate" :: rest =>
    let paths :=
      match readSuite rest with
      | .ok suite => [suite.graphPath, suite.formulaPath]
      | .error _ => []
    perform paths (generate rest)
  | _ =>
    let paths :=
      match readOrder args with
      | .ok order => order.paths
      | .error _ => []
    perform paths (solve (.zero false) args)
