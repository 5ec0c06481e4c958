import VertexCover.Decimal.Double
import VertexCover.Text.Integer

/-! Doubles read from decimal text.

A number has an optional sign, digits of any script with single underscores between digits, an
optional point and an optional exponent; infinity and not-a-number are spelled as words in any case.
Blanks at the ends are ignored. -/
namespace VertexCover.Double

/-- Digits with single underscores between them, or none at all, and the text after them. -/
def readRun (cs : List Char) : Option (List Nat × List Char) :=
  let run := cs.takeWhile Text.isDigitOrMark
  let rest := cs.dropWhile Text.isDigitOrMark
  if run.isEmpty then some ([], rest)
  else if Text.wellGrouped run && run.head? != some '_' then some (Text.digitValues run, rest)
  else none

/-- The digits after a point, if there is one. -/
def readFraction : List Char → Option (List Nat × List Char)
  | '.' :: cs => readRun cs
  | cs => some ([], cs)

/-- The value of an exponent mark, sign and digits, zero if there is no mark. -/
def readExponent (cs : List Char) : Option (Int × List Char) :=
  match cs with
  | c :: rest =>
    if c = 'e' || c = 'E' then
      let (negative, body) := Text.readSign rest
      match readRun body with
      | some (d :: ds, rest) =>
        let value : Int := Text.valueOfDigits (d :: ds)
        some (if negative then -value else value, rest)
      | _ => none
    else some (0, cs)
  | [] => some (0, [])

/-- Digits, point and exponent of an unsigned number that takes up the whole text. -/
def readDecimal (negative : Bool) (cs : List Char) : Option Double := do
  let (whole, rest) ← readRun cs
  let (fraction, rest) ← readFraction rest
  let (exponent, rest) ← readExponent rest
  if rest.isEmpty && !(whole.isEmpty && fraction.isEmpty) then
    some (ofDecimal negative (Text.valueOfDigits (whole ++ fraction)) (exponent - fraction.length))
  else none

/-- The words for numbers that are not finite. -/
def readWord (negative : Bool) (cs : List Char) : Option Double :=
  let word := String.ofList (cs.map Char.toLower)
  if word = "inf" || word = "infinity" then some (.infinite negative)
  else if word = "nan" then some .nan
  else none

/-- The double a text spells, rounded to the nearest. -/
def read (text : List Char) : Option Double :=
  let (negative, body) := Text.readSign (Text.trim Text.isNumberBlank text)
  match readWord negative body with
  | some a => some a
  | none => readDecimal negative body

end VertexCover.Double
