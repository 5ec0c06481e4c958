import VertexCover.Fault
import VertexCover.Figure
import VertexCover.Path
import VertexCover.Text.Lines

/-! Files and directories as a value.

The operations refuse a path for the reasons, and in the order, in which a file system does: a text
that is no path at all, then names on the way that are missing, no directories or too long, and then
what stands at its end. -/
namespace VertexCover

/-- What stands at a place. -/
inductive FileEntry where
  | directory
  | file (content : ByteArray)
  | figure (figure : Figure)

/-- Entries by place, the latest first. -/
structure FileTree where
  entries : List (Place × FileEntry)

/-- The most bytes a name may have. -/
def nameLimit : Nat := 255

/-- The most bytes a path may have. -/
def pathLimit : Nat := 4095

/-- Refuses a text that cannot be looked up, whatever files there are. -/
def checkPath (path : String) : Except Fault Unit :=
  if path.toList.contains '\x00' then .error .nullInPath
  else if path = "" then .error (.file (.missing path))
  else if pathLimit < path.utf8ByteSize then .error (.file (.nameTooLong path))
  else .ok ()

namespace FileTree

/-- The tree with nothing in it. -/
def empty : FileTree := ⟨[]⟩

/-- The entry at a place; the places above the working directory and the root are directories. -/
def entry? (t : FileTree) (place : Place) : Option FileEntry :=
  if place = ["/"] || place.all (· == "..") then some .directory else t.entries.lookup place

/-- Puts an entry at a place. -/
def put (t : FileTree) (place : Place) (entry : FileEntry) : FileTree :=
  ⟨(place, entry) :: t.entries.filter fun e => e.1 != place⟩

/-- A place must be a directory before a name in it is looked up; `path` is the path on whose way it
lies. -/
def enter (t : FileTree) (path : String) (place : Place) : Except Fault Unit :=
  match t.entry? place with
  | some .directory => .ok ()
  | some _ => .error (.file (.notDirectory path))
  | none => .error (.file (.missing path))

/-- The place of a name in a directory. -/
def look (path : String) (place : Place) (name : String) : Except Fault Place :=
  if nameLimit < name.utf8ByteSize then .error (.file (.nameTooLong path)) else .ok (place.step name)

/-- The place that names lead to from a place. -/
def walk (t : FileTree) (path : String) (place : Place) : List String → Except Fault Place
  | [] => .ok place
  | name :: rest => do
    t.enter path place
    t.walk path (← look path place name) rest

/-- The place a path names. -/
def locate (t : FileTree) (path : String) : Except Fault Place := do
  checkPath path
  t.walk path (startOf path) (pathParts path)

/-- The directory in which a path names something, and the last name of the path; the root and the
working directory have no last name. -/
def locateParent (t : FileTree) (path : String) : Except Fault (Place × Option String) := do
  checkPath path
  let parts := pathParts path
  let place ← t.walk path (startOf path) parts.dropLast
  t.enter path place
  return (place, parts.getLast?)

/-- The content of a file. -/
def read (t : FileTree) (path : String) : Except Fault ByteArray := do
  match t.entry? (← t.locate path) with
  | none => .error (.file (.missing path))
  | some .directory => .error (.file (.isDirectory path))
  | some (.file content) =>
    if endsInSlash path then .error (.file (.notDirectory path)) else .ok content
  | some (.figure _) =>
    if endsInSlash path then .error (.file (.notDirectory path)) else .ok ByteArray.empty

/-- The name stands for a directory wherever it is used. -/
def isDots (name : String) : Bool := name == "." || name == ".."

/-- Writes an entry as a file, over an older one if there is one. -/
def write (t : FileTree) (path : String) (entry : FileEntry) : Except Fault FileTree := do
  match ← t.locateParent path with
  | (_, none) => .error (.file (.isDirectory path))
  | (directory, some name) =>
    if isDots name || endsInSlash path then .error (.file (.isDirectory path))
    else
      let place ← look path directory name
      match t.entry? place with
      | some .directory => .error (.file (.isDirectory path))
      | _ => .ok (t.put place entry)

/-- Writes a text as a file. -/
def writeText (t : FileTree) (path text : String) : Except Fault FileTree :=
  t.write path (.file text.toUTF8)

/-- A directory stands at the path. A path that leads nowhere is no directory, but one that is too
long cannot be looked up. -/
def isDirectory (t : FileTree) (path : String) : Except Fault Bool :=
  match t.locate path with
  | .error (.file (.nameTooLong path)) => .error (.file (.nameTooLong path))
  | .error _ => .ok false
  | .ok place =>
    match t.entry? place with
    | some .directory => .ok true
    | _ => .ok false

/-- Makes one directory, in a directory that is there. -/
def makeOne (t : FileTree) (path : String) : Except Fault FileTree := do
  match ← t.locateParent path with
  | (_, none) => .error (.file (.alreadyExists path))
  | (directory, some name) =>
    if isDots name then .error (.file (.alreadyExists path))
    else
      let place ← look path directory name
      match t.entry? place with
      | some _ => .error (.file (.alreadyExists path))
      | none => .ok (t.put place .directory)

/-- What could not be made is no fault if a directory is there. -/
def settle (t : FileTree) (path : String) (fault : Fault) : Except Fault Unit := do
  match fault with
  | .file _ => if ← t.isDirectory path then return else throw fault
  | _ => throw fault

/-- Makes one directory, unless it is there. -/
def ensureOne (t : FileTree) (path : String) : Except Fault Unit × FileTree :=
  match t.makeOne path with
  | .ok made => (.ok (), made)
  | .error fault => (t.settle path fault, t)

/-- Makes the directory with the given names, the last one first, and those it lies in, unless they
are there. What has been made stays, even if the rest cannot be made. -/
def ensure (t : FileTree) (root : String) : List String → Except Fault Unit × FileTree
  | [] => t.ensureOne (Path.text ⟨root, []⟩)
  | name :: above =>
    let path := Path.text ⟨root, (name :: above).reverse⟩
    match t.makeOne path with
    | .ok made => (.ok (), made)
    | .error (.file (.missing _)) =>
      match t.ensure root above with
      | (.ok (), made) => made.ensureOne path
      | failed => failed
    | .error fault => (t.settle path fault, t)

/-- Makes a directory and those it lies in, unless they are there. -/
def makeDirectory (t : FileTree) (p : Path) : Except Fault Unit × FileTree :=
  t.ensure p.root p.names.reverse

/-- Writes a text as a file after making the directory it lies in, which stays even if the file
cannot be written. -/
def save (t : FileTree) (path text : String) : Except Fault Unit × FileTree :=
  match t.makeDirectory (Path.ofText path).parent with
  | (.ok (), made) =>
    match made.writeText path text with
    | .error fault => (.error fault, made)
    | .ok written => (.ok (), written)
  | failed => failed

/-- The lines of a text file. -/
def readLines (t : FileTree) (path : String) : Except Fault (List String) := do
  match String.fromUTF8? (← t.read path) with
  | none => .error .undecodable
  | some text => .ok (Text.lines text)

end FileTree

end VertexCover
