import VertexCover.Decimal.Double

/-! Numbers of either kind: integers of any size, which are exact, and doubles. -/
namespace VertexCover

/-- An integer or a double. -/
inductive Number where
  | whole (n : Int)
  | real (x : Double)
deriving DecidableEq, Repr

namespace Number

/-- The nearest double; an integer may be too large for one. -/
def toDouble? : Number → Option Double
  | .real x => some x
  | .whole n =>
    match Double.ofInt n with
    | .infinite _ => none
    | x => some x

/-- The difference: exact between integers, else that of the doubles. -/
def sub? : Number → Number → Option Number
  | .whole a, .whole b => some (.whole (a - b))
  | a, b =>
    match a.toDouble?, b.toDouble? with
    | some x, some y => some (.real (x.sub y))
    | _, _ => none

end Number

end VertexCover
