import VertexCover.Formula.Basic

/-! Formulas given by values of any kind.

Only integers, and doubles without a fraction, make literals; every other value is refused with a
reason of its own. -/
namespace VertexCover

/-- A value offered as a literal. -/
inductive RawLiteral where
  | int (n : Int)
  | double (x : Double)
  | truth (b : Bool)
  | text (s : String)
  | other
deriving DecidableEq, Repr

/-- The words for the truth values. -/
def truthText (b : Bool) : String := if b then "True" else "False"

/-- The integer a value stands for. -/
def RawLiteral.toInt : RawLiteral → Except Fault Int
  | .int n => .ok n
  | .truth b => .error (.malformed (.literalKind (truthText b)))
  | .other => .error .wrongKind
  | .text s =>
    match Text.readInteger s.toList with
    | .ok _ => .error (.malformed (.literalKind (Text.quoted s)))
    | .error .invalid => .error (.integerText s)
    | .error (.tooLong digits) => .error (.integerLength digits)
  | .double (.infinite _) => .error .infiniteNumber
  | .double .nan => .error .undefinedNumber
  | .double x =>
    match x.integral? with
    | some n => .ok n
    | none => .error (.malformed (.literalKind x.write))

/-- The formula of a list of values; the values are checked before their number, and that before
zeros. -/
def Formula.ofRaw (values : List RawLiteral) : Except Fault Formula := do
  match Formula.ofInts (← values.mapM RawLiteral.toInt) with
  | .ok f => .ok f
  | .error cause => .error (.malformed cause)

end VertexCover
