/-! Blank characters, trimming and blank-separated words.

`isBlank` holds of the control separators, the ASCII space and the space separators of Unicode;
`words` gives the maximal runs of other characters and never an empty one. -/
namespace VertexCover.Text

/-- The characters that separate words and are trimmed from the ends of a line. -/
def isBlank (c : Char) : Bool :=
  let n := c.toNat
  (9 ≤ n && n ≤ 13) || (28 ≤ n && n ≤ 32) || n == 0x85 || n == 0xA0 || n == 0x1680 ||
    (0x2000 ≤ n && n ≤ 0x200A) || n == 0x2028 || n == 0x2029 || n == 0x202F || n == 0x205F ||
    n == 0x3000

/-- Drops the characters with `p` from both ends. -/
def trim (p : Char → Bool) (cs : List Char) : List Char :=
  ((cs.dropWhile p).reverse.dropWhile p).reverse

/-- The text without the blanks at its ends. -/
def strip (cs : List Char) : List Char := trim isBlank cs

/-- The word a text starts with, empty if it starts with a blank, and the words after it. -/
def scanWords : List Char → List Char × List (List Char)
  | [] => ([], [])
  | c :: cs =>
    let (word, rest) := scanWords cs
    if isBlank c then ([], if word.isEmpty then rest else word :: rest) else (c :: word, rest)

/-- The maximal runs of characters that are not blank. -/
def words (cs : List Char) : List (List Char) :=
  let (word, rest) := scanWords cs
  if word.isEmpty then rest else word :: rest

/-- The parts between the separators `sep`; a text without one is its own only part. -/
def pieces (sep : Char) : List Char → List (List Char)
  | [] => [[]]
  | c :: cs =>
    match pieces sep cs with
    | [] => [[c]]
    | part :: parts => if c = sep then [] :: part :: parts else (c :: part) :: parts

/-- A line with nothing but blanks. -/
def isBlankLine (line : String) : Bool := line.toList.all isBlank

end VertexCover.Text
