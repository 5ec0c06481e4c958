import VertexCover.Decimal.Double
import VertexCover.Text.Integer

/-! Decimal text of doubles.

`shortest` gives the fewest digits that read back as the same double and, of those, the nearest;
`Layout` says how digits and exponent are written down. `fixed` writes a given number of places. -/
namespace VertexCover.Double

/-- The greatest `e` with `10 ^ e` at most the positive quotient. -/
def decimalExponent (num den : Nat) : Int :=
  if den ≤ num then ((Nat.toDigits 10 (num / den)).length : Int) - 1
  else
    let length := (Nat.toDigits 10 (den / num)).length
    if den ≤ num * Nat.pow 10 (length - 1) then -((length : Int) - 1) else -(length : Int)

/-- The interval of the numbers that round to a double: its lower and upper end over one common
denominator, and whether the ends belong to it. -/
structure Interval where
  low : Nat
  value : Nat
  high : Nat
  den : Nat
  closed : Bool

/-- The numbers that round to `mantissa · 2 ^ exponent`. -/
def interval (mantissa : Nat) (exponent : Int) : Interval :=
  let below := if mantissa = Nat.pow 2 52 && -1074 < exponent then 1 else 2
  let (unit, den) := scale 1 1 (exponent - 2)
  { low := (4 * mantissa - below) * unit
    value := 4 * mantissa * unit
    high := (4 * mantissa + 2) * unit
    den
    closed := mantissa % 2 == 0 }

/-- `digits · 10 ^ exponent` lies in the interval. -/
def Interval.holds (i : Interval) (digits : Nat) (exponent : Int) : Bool :=
  let (num, den) :=
    if 0 ≤ exponent then (digits * Nat.pow 10 exponent.toNat, 1)
    else (digits, Nat.pow 10 (-exponent).toNat)
  let point := num * i.den
  if i.closed then i.low * den ≤ point && point ≤ i.high * den
  else i.low * den < point && point < i.high * den

/-- The candidates with a given decimal exponent: the neighbours of the value on that grid. -/
def Interval.onGrid (i : Interval) (exponent : Int) : Option Nat :=
  let (num, den) :=
    if 0 ≤ exponent then (i.value, i.den * Nat.pow 10 exponent.toNat)
    else (i.value * Nat.pow 10 (-exponent).toNat, i.den)
  let below := num / den
  let near := roundDiv num den
  if i.holds near exponent then some near
  else if i.holds below exponent then some below
  else if i.holds (below + 1) exponent then some (below + 1)
  else none

/-- The first grid, from coarse to fine, on which the interval has a point. -/
def Interval.search (i : Interval) (exponent : Int) : Nat → Nat × Int
  | 0 => (i.value / i.den, 0)
  | steps + 1 =>
    match i.onGrid exponent with
    | some digits => (digits, exponent)
    | none => i.search (exponent - 1) steps

/-- The fewest digits that read back as the positive double, with their decimal exponent. -/
def shortest (mantissa : Nat) (exponent : Int) : Nat × Int :=
  let (num, den) := magnitude mantissa exponent
  (interval mantissa exponent).search (decimalExponent num den) 17

/-- How digits and a decimal exponent are written. -/
structure Layout where
  /-- The least exponent of the leading digit that is written with a point only. -/
  least : Int
  /-- The first exponent of the leading digit that is too large for that. -/
  bound : Int
  /-- The fewest digits of a written exponent. -/
  exponentWidth : Nat

/-- Plain decimals from `10 ^ -4` up to below `10 ^ 16`, else an exponent of two digits or more. -/
def Layout.standard : Layout := ⟨-4, 16, 2⟩

/-- The text of the digits of a positive number whose leading digit has the given exponent. -/
def Layout.write (layout : Layout) (digits : List Char) (leading : Int) : List Char :=
  if leading < layout.least || layout.bound ≤ leading then
    let fraction := digits.drop 1
    let sign := if leading < 0 then '-' else '+'
    digits.take 1 ++ (if fraction.isEmpty then [] else '.' :: fraction) ++
      'e' :: sign :: Text.padLeft layout.exponentWidth '0' (Nat.toDigits 10 leading.natAbs)
  else if leading < 0 then
    ['0', '.'] ++ List.replicate (leading.natAbs - 1) '0' ++ digits
  else
    let whole := leading.toNat + 1
    let fraction := digits.drop whole
    digits.take whole ++ List.replicate (whole - digits.length) '0' ++
      '.' :: (if fraction.isEmpty then ['0'] else fraction)

/-- Digits without the zeros at their end. -/
def dropFinalZeros (digits : List Char) : List Char :=
  (digits.reverse.dropWhile (· == '0')).reverse

/-- The text of a double: the shortest digits that read back. -/
def write (a : Double) : String :=
  let sign := if a.isNegative then ['-'] else []
  match a with
  | .nan => "nan"
  | .infinite _ => String.ofList (sign ++ ['i', 'n', 'f'])
  | .finite _ mantissa exponent =>
    if mantissa = 0 then String.ofList (sign ++ ['0', '.', '0'])
    else
      let (value, scale) := shortest mantissa exponent
      let digits := Nat.toDigits 10 value
      String.ofList
        (sign ++ Layout.standard.write (dropFinalZeros digits) (scale + digits.length - 1))

/-- The text of a double with a fixed number of places; a half goes to the even digit. -/
def fixed (places : Nat) (a : Double) : String :=
  let sign := if a.isNegative then ['-'] else []
  match a with
  | .nan => "nan"
  | .infinite _ => String.ofList (sign ++ ['i', 'n', 'f'])
  | .finite _ mantissa exponent =>
    let (num, den) := magnitude mantissa exponent
    let rounded := roundDiv (num * Nat.pow 10 places) den
    let digits := Text.padLeft (places + 1) '0' (Nat.toDigits 10 rounded)
    let whole := digits.length - places
    String.ofList (sign ++ digits.take whole ++ '.' :: digits.drop whole)

end VertexCover.Double
