import VertexCover.Formula.Entry
import VertexCover.Search.Solve

/-! Satisfiability as a vertex cover problem.

The gadget graph of a formula has two joined nodes for every variable, one for each of its literals,
and a triangle for every clause, one node for each of its places; every clause node is also joined
with the variable node of its literal. A cover takes at least one node of every pair and two of every
triangle. It takes no more exactly if the formula can be satisfied, and then the variable nodes in it
spell a satisfying assignment. -/
namespace VertexCover

/-- What a node of the gadget graph stands for. -/
structure GadgetNode where
  literal : Literal
  /-- The clause and the place in it, for a clause node. -/
  place : Option (Nat × Nat)
deriving DecidableEq, Repr

/-- The two literals of the variable numbered `i + 1`. -/
def literalsAt (i : Nat) : List Literal :=
  [⟨i + 1, true, i.succ_pos⟩, ⟨i + 1, false, i.succ_pos⟩]

/-- The number of the variable node of a literal. -/
def Literal.node (l : Literal) : Nat := 2 * (l.var - 1) + if l.positive then 0 else 1

namespace Formula

/-- The gadget nodes in the order of their numbers: variables first, then clauses. -/
def gadgetNodes (f : Formula) : List GadgetNode :=
  ((List.range f.varCount).flatMap fun i => (literalsAt i).map fun l => ⟨l, none⟩) ++
    f.clauses.zipIdx.flatMap fun (c, k) =>
      c.literals.zipIdx.map fun (l, p) => ⟨l, some (k, p)⟩

/-- The edges at the triangle whose first node is `base`: its sides, and the edges to the variable
nodes. -/
def clauseEdges (c : Clause) (base : Nat) : List (Nat × Nat) :=
  [(base, base + 1), (base, base + 2), (base + 1, base + 2),
    (base, c.first.node), (base + 1, c.second.node), (base + 2, c.third.node)]

/-- The edges of the gadget graph between numbered nodes. -/
def gadgetEdges (f : Formula) : List (Nat × Nat) :=
  ((List.range f.varCount).map fun i => (2 * i, 2 * i + 1)) ++
    f.clauses.zipIdx.flatMap fun (c, k) => clauseEdges c (2 * f.varCount + 3 * k)

/-- The gadget graph of a formula. -/
def gadgetGraph (f : Formula) : Graph :=
  ((Graph.empty (2 * f.varCount + 3 * f.size)).insertEdges
    (f.gadgetEdges.map fun (i, j) => (Label.int (i : Nat), Label.int (j : Nat)))).freeze

/-- The values a cover of the gadget graph gives to the variables: true if the node of the positive
literal is in it. -/
def readCover (f : Formula) (cover : List Label) : List Bool :=
  (List.range f.varCount).map fun i => cover.contains (.int ((2 * i : Nat) : Int))

end Formula

/-- The verdict on a formula. -/
structure Verdict where
  /-- The values of the variables in a satisfying assignment, if there is one. -/
  values : Option (List Bool)
  /-- The cover that was found. -/
  cover : List Label
  /-- The size that a cover for a satisfying assignment has. -/
  target : Nat
  graph : Graph
  stats : Stats

/-- The formula can be satisfied. -/
def Verdict.satisfiable (v : Verdict) : Bool := v.values.isSome

/-- Decides a formula by a bounded cover search on its gadget graph. -/
def Formula.solve (f : Formula) : Verdict :=
  let graph := f.gadgetGraph
  let found := graph.boundedCover f.target
  { values := if f.target < found.members.length then none else some (f.readCover found.members)
    cover := found.members
    target := f.target
    graph
    stats := found.stats }

/-- Values by variable between braces. -/
def valuesText (values : List Bool) : String :=
  let items := (numbered values).map fun (v, value) => s!"{Text.ofNatural v}: {truthText value}"
  "\x7b" ++ String.intercalate ", " items ++ "\x7d"

/-- What the decision has to say. -/
def Verdict.log (v : Verdict) (seconds : Double) : List Log.Entry :=
  let found : Found := ⟨v.cover, v.stats⟩
  let size := Text.ofNatural v.cover.length
  let message :=
    match v.values with
    | none =>
      s!"Unsatisfiable: smallest cover has {size} vertices, needed {Text.ofNatural v.target}"
    | some values => s!"Satisfiable with cover of size {size}: {valuesText values}"
  found.log seconds ++ [⟨.info, .formula, message⟩]

end VertexCover
