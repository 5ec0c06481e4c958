/-! Binary numbers of double precision, as exact values.

A finite double is a signed integer of at most 53 bits times a power of two. Every operation here is
done exactly and then rounded to the nearest double, a half going to the even mantissa. -/
namespace VertexCover

/-- A number of double precision. -/
inductive Double where
  /-- The value `mantissa · 2 ^ exponent`, with a sign that zero has too. -/
  | finite (negative : Bool) (mantissa : Nat) (exponent : Int)
  | infinite (negative : Bool)
  | nan
deriving DecidableEq, Repr

namespace Double

/-- The integer nearest to a quotient; a half goes to the even neighbour. -/
def roundDiv (num den : Nat) : Nat :=
  let q := num / den
  let r := num % den
  if den < 2 * r || (2 * r == den && q % 2 == 1) then q + 1 else q

/-- A quotient times a power of two, as a quotient. -/
def scale (num den : Nat) (exponent : Int) : Nat × Nat :=
  if 0 ≤ exponent then (num * Nat.pow 2 exponent.toNat, den)
  else (num, den * Nat.pow 2 (-exponent).toNat)

/-- The exponent of the double nearest to a positive quotient. -/
def exponentFor (num den : Nat) : Int :=
  let guess : Int := (num.log2 : Int) - den.log2 - 52
  let (a, b) := scale num den (-guess)
  max (if a < Nat.pow 2 52 * b then guess - 1 else guess) (-1074)

/-- The zero of the given sign. -/
def zero (negative : Bool) : Double := .finite negative 0 (-1074)

/-- The double nearest to a quotient of natural numbers. -/
def nearest (negative : Bool) (num den : Nat) : Double :=
  if num = 0 then zero negative
  else
    let exponent := exponentFor num den
    let (a, b) := scale num den (-exponent)
    let mantissa := roundDiv a b
    let (mantissa, exponent) :=
      if mantissa = Nat.pow 2 53 then (Nat.pow 2 52, exponent + 1) else (mantissa, exponent)
    if 971 < exponent then .infinite negative else .finite negative mantissa exponent

/-- The double nearest to an integer. -/
def ofInt (n : Int) : Double := nearest (n < 0) n.natAbs 1

/-- The double nearest to `digits · 10 ^ exponent`. -/
def ofDecimal (negative : Bool) (digits : Nat) (exponent : Int) : Double :=
  let magnitude := exponent + (Nat.toDigits 10 digits).length
  if digits = 0 || magnitude < -330 then zero negative
  else if 330 < magnitude then .infinite negative
  else if 0 ≤ exponent then nearest negative (digits * Nat.pow 10 exponent.toNat) 1
  else nearest negative digits (Nat.pow 10 (-exponent).toNat)

/-- A finite double as a quotient of a natural number and a positive one, without its sign. -/
def magnitude (mantissa : Nat) (exponent : Int) : Nat × Nat := scale mantissa 1 exponent

/-- The sign a number is written with. -/
def isNegative : Double → Bool
  | .finite negative _ _ => negative
  | .infinite negative => negative
  | .nan => false

/-- The number with the other sign. -/
def neg : Double → Double
  | .finite negative mantissa exponent => .finite (!negative) mantissa exponent
  | .infinite negative => .infinite (!negative)
  | .nan => .nan

/-- The sum, rounded. Of two zeros of different sign, and of a number and its negative, the sum is
the positive zero. -/
def add : Double → Double → Double
  | .nan, _ => .nan
  | _, .nan => .nan
  | .infinite a, .infinite b => if a = b then .infinite a else .nan
  | .infinite a, .finite .. => .infinite a
  | .finite .., .infinite b => .infinite b
  | .finite na ma ea, .finite nb mb eb =>
    let low := min ea eb
    let a : Int := (ma * Nat.pow 2 (ea - low).toNat : Nat)
    let b : Int := (mb * Nat.pow 2 (eb - low).toNat : Nat)
    let total := (if na then -a else a) + (if nb then -b else b)
    if total = 0 then zero (na && nb)
    else
      let (num, den) := magnitude total.natAbs low
      nearest (total < 0) num den

/-- The difference, rounded. -/
def sub (a b : Double) : Double := a.add b.neg

/-- The product with a natural number, rounded. -/
def mulNat (a : Double) (n : Nat) : Double :=
  match a with
  | .nan => .nan
  | .infinite negative => if n = 0 then .nan else .infinite negative
  | .finite negative mantissa exponent =>
    let (num, den) := magnitude (mantissa * n) exponent
    nearest negative num den

/-- The quotient `num / den` lies below the number. -/
def exceeds (a : Double) (num den : Nat) : Bool :=
  match a with
  | .nan => false
  | .infinite negative => !negative
  | .finite negative mantissa exponent =>
    let (p, q) := magnitude mantissa exponent
    !negative && num * q < p * den

/-- The number is zero or lies below it. -/
def isNonpositive : Double → Bool
  | .nan => false
  | .infinite negative => negative
  | .finite negative mantissa _ => negative || mantissa == 0

/-- The number is one or lies above it. -/
def isAtLeastOne : Double → Bool
  | .nan => false
  | .infinite negative => !negative
  | .finite negative mantissa exponent =>
    let (p, q) := magnitude mantissa exponent
    !negative && q ≤ p

/-- The integer part of a finite number, toward zero. -/
def truncate (negative : Bool) (mantissa : Nat) (exponent : Int) : Int :=
  let (p, q) := magnitude mantissa exponent
  if negative then -((p / q : Nat) : Int) else (p / q : Nat)

/-- A finite number without a fraction, as an integer. -/
def integral? : Double → Option Int
  | .finite negative mantissa exponent =>
    let (p, q) := magnitude mantissa exponent
    if p % q = 0 then some (truncate negative mantissa exponent) else none
  | _ => none

end Double

end VertexCover
