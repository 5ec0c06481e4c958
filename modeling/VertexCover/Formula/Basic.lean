import VertexCover.Decimal.Shortest
import VertexCover.Fault

/-! Formulas in conjunctive form with three literals to a clause.

A literal is a variable, numbered from one, or its negation. A formula is written as a flat list of
signed integers, three to a clause; `ofInts` reads that list and `toInts` writes it. Evaluation works
on partial assignments and only fails at a variable it has to look at. -/
namespace VertexCover

/-- A variable or its negation. -/
structure Literal where
  var : Nat
  positive : Bool
  var_pos : 0 < var
deriving DecidableEq, Repr

/-- Truth values for some of the variables. -/
abbrev Assignment := Nat → Option Bool

namespace Literal

/-- The literal a signed integer stands for; zero stands for none. -/
def ofInt (n : Int) : Except Malformed Literal :=
  if h : n = 0 then .error .zeroLiteral else .ok ⟨n.natAbs, decide (0 < n), by omega⟩

/-- The signed integer of a literal. -/
def toInt (l : Literal) : Int := if l.positive then l.var else -(l.var : Int)

/-- The literal of the same variable with the other sign. -/
def negate (l : Literal) : Literal := { l with positive := !l.positive }

/-- The truth value of a literal; its variable must have one. -/
def isTrue (l : Literal) (a : Assignment) : Except Fault Bool :=
  match a l.var with
  | none => .error (.unboundVariable l.var)
  | some value => .ok (value == l.positive)

theorem toInt_ne_zero (l : Literal) : l.toInt ≠ 0 := by
  have := l.var_pos
  unfold toInt
  split <;> omega

theorem ofInt_toInt (l : Literal) : ofInt l.toInt = .ok l := by
  have h := l.toInt_ne_zero
  rw [ofInt, dif_neg h]
  obtain ⟨var, positive, var_pos⟩ := l
  cases positive <;> simp [toInt, var_pos]

end Literal

/-- Three literals of which one has to be true. -/
structure Clause where
  first : Literal
  second : Literal
  third : Literal
deriving DecidableEq, Repr

namespace Clause

/-- The literals in their order. -/
def literals (c : Clause) : List Literal := [c.first, c.second, c.third]

/-- Some literal is true; literals after the first true one are not looked at. -/
def evaluate (c : Clause) (a : Assignment) : Except Fault Bool := do
  if ← c.first.isTrue a then return true
  if ← c.second.isTrue a then return true
  c.third.isTrue a

end Clause

/-- Clauses that all have to hold. -/
structure Formula where
  clauses : List Clause
deriving DecidableEq, Repr

namespace Formula

/-- Groups the literals of a list by three; a rest of one or two is dropped. -/
def grouped : List Literal → List Clause
  | a :: b :: c :: rest => ⟨a, b, c⟩ :: grouped rest
  | _ => []

/-- The formula of a flat list of signed integers. The length must be a multiple of three and no
integer may be zero. -/
def ofInts (values : List Int) : Except Malformed Formula :=
  if values.length % 3 ≠ 0 then .error (.literalCount values.length)
  else
    match values.mapM Literal.ofInt with
    | .error cause => .error cause
    | .ok literals => .ok ⟨grouped literals⟩

/-- All literals in their order. -/
def literals (f : Formula) : List Literal := f.clauses.flatMap Clause.literals

/-- The flat list of signed integers. -/
def toInts (f : Formula) : List Int := f.literals.map Literal.toInt

/-- The greatest variable that occurs, zero if none does. -/
def varCount (f : Formula) : Nat := f.literals.foldl (fun most l => max most l.var) 0

/-- The number of clauses. -/
def size (f : Formula) : Nat := f.clauses.length

/-- The size of the covers of the gadget graph that stand for satisfying assignments. -/
def target (f : Formula) : Nat := f.varCount + 2 * f.size

/-- Every clause of the list holds; clauses after the first false one are not looked at. -/
def evaluateAll (a : Assignment) : List Clause → Except Fault Bool
  | [] => .ok true
  | c :: rest => do
    if ← c.evaluate a then evaluateAll a rest else return false

/-- The truth value of the formula under a partial assignment. -/
def evaluate (f : Formula) (a : Assignment) : Except Fault Bool := evaluateAll a f.clauses

end Formula

/-- The assignment that gives the first variables the listed values. -/
def Assignment.ofVector (values : List Bool) : Assignment :=
  fun v => if v = 0 then none else values[v - 1]?

/-- The assignment of a list of entries, of which the latest counts. -/
def Assignment.ofEntries (entries : List (Int × Bool)) : Assignment :=
  fun v => (entries.reverse.find? fun e => e.1 == (v : Int)).map Prod.snd

/-- The values of the first variables, each with its number. -/
def numbered (values : List Bool) : List (Nat × Bool) :=
  values.zipIdx.map fun (value, i) => (i + 1, value)

end VertexCover
