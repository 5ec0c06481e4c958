import VertexCover.Text.Blank

/-! Paths of files.

The text of a path is divided by slashes. A plain path has neither empty names nor names for the
place itself; the name for the place above stays, because what it means depends on the files. -/
namespace VertexCover

/-- The names in a path, without empty ones. -/
def pathParts (path : String) : List String :=
  ((Text.pieces '/' path.toList).map String.ofList).filter (· != "")

/-- The path ends in a slash. -/
def endsInSlash (path : String) : Bool := path.toList.getLast? == some '/'

/-- A path without empty names and without names for the place itself. -/
structure Path where
  /-- The slashes it starts with: none, one, or two if there are exactly two. -/
  root : String
  names : List String
deriving DecidableEq, Repr

namespace Path

/-- The slashes that stay in front of a path. -/
def rootOf : List Char → String
  | '/' :: '/' :: '/' :: _ => "/"
  | '/' :: '/' :: _ => "//"
  | '/' :: _ => "/"
  | _ => ""

/-- The plain path of a text. -/
def ofText (path : String) : Path := ⟨rootOf path.toList, (pathParts path).filter (· != ".")⟩

/-- The text of a path; the working directory is a dot. -/
def text (p : Path) : String :=
  if p.root = "" && p.names.isEmpty then "." else p.root ++ String.intercalate "/" p.names

/-- The path of the directory a path lies in. -/
def parent (p : Path) : Path := { p with names := p.names.dropLast }

/-- The path of something in a directory. -/
def child (p : Path) (name : String) : Path := { p with names := p.names ++ [name] }

end Path

/-- Where something stands: the names that lead to it from the working directory. A place outside
that directory starts with names for the place above, or with the root. -/
abbrev Place := List String

/-- The place a path starts from. -/
def startOf (path : String) : Place := if path.toList.head? = some '/' then ["/"] else []

/-- The place reached from a place by a name. -/
def Place.step (place : Place) (name : String) : Place :=
  if name = "." then place
  else if name = ".." && !place.isEmpty && place.getLast? != some ".." then
    if place = ["/"] then place else place.dropLast
  else place ++ [name]

end VertexCover
