import VertexCover.Formula.Basic
import VertexCover.Graph.Upper
import VertexCover.Random.Draw

/-! Random graphs and formulas.

A random formula names its greatest variable at some place, so that the variables of the formula are
those that were asked for. A planted formula is a random formula in which one literal is turned round
in every clause that a drawn assignment does not satisfy. -/
namespace VertexCover.Random

variable {γ : Type}

/-- The pairs that are drawn as edges: each with the given probability. -/
def edges (next : Next γ) (range : Nat) (p : Double) : List (Label × Label) → γ → List (Label × Label)
  | [], _ => []
  | e :: rest, s =>
    let later := edges next range p rest (next s).2
    if p.exceeds (next s).1 range then e :: later else later

theorem edges_sublist (next : Next γ) (range : Nat) (p : Double) (all : List (Label × Label)) (s : γ) :
    (edges next range p all s).Sublist all := by
  induction all generalizing s with
  | nil => exact .slnil
  | cons e rest ih =>
    rw [edges]
    split
    · exact .cons_cons _ (ih _)
    · exact .cons _ (ih _)

/-- The edges of a random graph. A probability outside the open interval from zero to one needs no
draw. -/
def chosen (next : Next γ) (range : Nat) (p : Double) (all : List (Label × Label)) (s : γ) :
    List (Label × Label) :=
  if p.isNonpositive then [] else if p.isAtLeastOne then all else edges next range p all s

theorem chosen_sublist (next : Next γ) (range : Nat) (p : Double) (all : List (Label × Label))
    (s : γ) : (chosen next range p all s).Sublist all := by
  rw [chosen]
  split
  · exact List.nil_sublist _
  · split
    · exact .refl _
    · exact edges_sublist next range p all s

/-- A frozen random graph on `0, …, n - 1`. -/
def graph (next : Next γ) (range : Nat) (n : Int) (p : Double) (s : γ) : Except Fault Graph :=
  if n < 0 then .error (.negativeNodeCount n)
  else
    let nodes := Label.upTo n.toNat
    .ok (Graph.ofUpper nodes (Label.upTo_nodup _) (chosen next range p (pairs nodes) s)
      ((chosen_sublist next range p _ s).trans (pairs_sublist_upper nodes))).freeze

/-- Clauses need a variable. -/
def checkShape (vars clauses : Int) : Except Fault Unit :=
  if vars < 1 && 0 < clauses then .error .noVariables else .ok ()

/-- Puts the greatest variable at a drawn place, if there is a place. -/
def forceGreatest (next : Next γ) (greatest : Int) (drawn : List Int) (s : γ) : List Int × γ :=
  if drawn.isEmpty then (drawn, s)
  else
    let (place, s) := below next 0 drawn.length s
    (drawn.set place.toNat greatest, s)

/-- A formula with so many clauses over so many variables. -/
def formula (next : Next γ) (vars clauses : Int) (s : γ) : Except Fault (Formula × γ) := do
  checkShape vars clauses
  let (drawn, s) ← array next 1 (vars + 1) (3 * clauses) s
  let (drawn, s) := forceGreatest next vars drawn s
  let (signs, s) := many next 0 2 drawn.length s
  let values := (drawn.zip signs).map fun (v, sign) => if sign = 0 then -v else v
  match Formula.ofInts values with
  | .ok f => .ok (f, s)
  | .error cause => .error (.malformed cause)

/-- Values for variables. -/
def values (next : Next γ) (count : Nat) (s : γ) : List Bool × γ :=
  let (drawn, s) := many next 0 2 count s
  (drawn.map (· != 0), s)

/-- The clause with the literal at a place turned round. -/
def flipAt (c : Clause) (place : Int) : Clause :=
  if place = 0 then { c with first := c.first.negate }
  else if place = 1 then { c with second := c.second.negate }
  else { c with third := c.third.negate }

/-- Some literal of the clause has the value that the assignment gives it. -/
def holds (a : Assignment) (c : Clause) : Bool :=
  c.literals.any fun l => a l.var == some l.positive

/-- Turns round a drawn literal in every clause that does not hold. -/
def plant (next : Next γ) (a : Assignment) : List Clause → γ → List Clause × γ
  | [], s => ([], s)
  | c :: rest, s =>
    if holds a c then
      let (rest, s) := plant next a rest s
      (c :: rest, s)
    else
      let (place, s) := below next 0 3 s
      let (rest, s) := plant next a rest s
      (flipAt c place :: rest, s)

/-- A formula with values for its variables that satisfy it. -/
def planted (next : Next γ) (vars clauses : Int) (s : γ) :
    Except Fault (Formula × List Bool) := do
  let (hidden, s) := values next vars.toNat s
  let (f, s) ← formula next vars clauses s
  return (⟨(plant next (.ofVector hidden) f.clauses s).1⟩, hidden)

/-- The random graph of a seed. -/
def graphOfSeed (n : Int) (p : Double) (seed : Int) : Except Fault Graph :=
  graph Lcg.next Lcg.range n p (.ofSeed seed)

/-- The random formula of a seed. The shape is checked before the seed. -/
def formulaOfSeed (vars clauses seed : Int) : Except Fault Formula := do
  checkShape vars clauses
  return (← formula Lcg.next vars clauses (← Lcg.ofSeed? seed)).1

/-- The planted formula of a seed, with the values. -/
def plantedOfSeed (vars clauses seed : Int) : Except Fault (Formula × List Bool) := do
  planted Lcg.next vars clauses (← Lcg.ofSeed? seed)

end VertexCover.Random
