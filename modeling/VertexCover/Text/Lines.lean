/-! Lines of a text file.

A line ends at a line feed, a carriage return or both in this order. The ends are not part of the
lines, and nothing follows the end of the last one. -/
namespace VertexCover.Text

/-- Whether a text has a line at all, its first line and the lines after it. -/
def scanLines : List Char → Bool × List Char × List (List Char)
  | [] => (false, [], [])
  | c :: cs =>
    let (isLine, line, rest) := scanLines cs
    if c = '\r' && cs.head? == some '\n' then (isLine, line, rest)
    else if c = '\n' || c = '\r' then
      (true, [], if isLine then line :: rest else rest)
    else (true, c :: line, rest)

/-- The lines of a text. -/
def lines (text : String) : List String :=
  let (isLine, line, rest) := scanLines text.toList
  ((if isLine then line :: rest else rest).map String.ofList)

end VertexCover.Text
