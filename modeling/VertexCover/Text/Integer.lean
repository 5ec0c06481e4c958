import VertexCover.Text.Blank
import VertexCover.Text.Digit

/-! Integers in decimal text.

Reading takes an optional sign and digits of any script, with single underscores between digits,
and blanks at the ends; it refuses more than `digitLimit` digits. Writing uses ASCII digits without
leading zeros, so what is written is read back. -/
namespace VertexCover.Text

/-- Why a text is not read as an integer. -/
inductive IntegerFault where
  | invalid
  | tooLong (digits : Nat)
deriving DecidableEq, Repr

/-- The most digits an integer text may have. -/
def digitLimit : Nat := 4300

/-- The blanks allowed around a number: all but the four control separators. -/
def isNumberBlank (c : Char) : Bool := isBlank c && !(28 ≤ c.toNat && c.toNat ≤ 31)

/-- An optional sign, true for a minus, and the text after it. -/
def readSign : List Char → Bool × List Char
  | '-' :: cs => (true, cs)
  | '+' :: cs => (false, cs)
  | cs => (false, cs)

/-- A digit or the underscore that may stand between two digits. -/
def isDigitOrMark (c : Char) : Bool := c == '_' || isDigit c

/-- Every underscore stands between two digits, and there is a digit. -/
def wellGrouped : List Char → Bool
  | [] => false
  | [c] => c != '_'
  | c :: d :: cs => (c != '_' || d != '_') && wellGrouped (d :: cs)

/-- The values of the digits of a run, underscores dropped. -/
def digitValues (run : List Char) : List Nat := run.filterMap digitValue?

/-- The number with these decimal digits, the highest first. -/
def valueOfDigits (digits : List Nat) : Nat := digits.foldl (fun value d => 10 * value + d) 0

/-- The integer a text spells. -/
def readInteger (text : List Char) : Except IntegerFault Int :=
  let (negative, body) := readSign (text.dropWhile isNumberBlank)
  let run := body.takeWhile isDigitOrMark
  let digits := digitValues run
  if !wellGrouped run || run.head? == some '_' then .error .invalid
  else if digitLimit < digits.length then .error (.tooLong digits.length)
  else if (body.dropWhile isDigitOrMark).all isNumberBlank then
    .ok (if negative then -(valueOfDigits digits : Int) else valueOfDigits digits)
  else .error .invalid

/-- The integer a text spells, if it does. -/
def integer? (text : List Char) : Option Int := (readInteger text).toOption

/-- The decimal text of an integer. -/
def writeInteger (n : Int) : List Char :=
  if n < 0 then '-' :: Nat.toDigits 10 n.natAbs else Nat.toDigits 10 n.natAbs

/-- The decimal text of an integer, as a string. -/
def ofInteger (n : Int) : String := String.ofList (writeInteger n)

/-- The decimal text of a natural number, as a string. -/
def ofNatural (n : Nat) : String := String.ofList (Nat.toDigits 10 n)

/-- Puts blanks in front of a text up to the given width. -/
def padLeft (width : Nat) (fill : Char) (cs : List Char) : List Char :=
  List.replicate (width - cs.length) fill ++ cs

end VertexCover.Text
