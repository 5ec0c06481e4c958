import VertexCover.Graph.Complement
import VertexCover.Search.Solve

/-! Cliques and independent sets through vertex covers.

The nodes outside a cover of the complement are a clique, and the nodes outside a cover are an
independent set; small covers leave large sets. -/
namespace VertexCover

/-- The members that were found, unless there are labels of both kinds among them. -/
def Found.listed? (found : Found) : Except Fault (List Label) :=
  if Label.comparable found.members then .ok found.members else .error .mixedLabels

namespace Graph

/-- A largest clique, with the counters of the search on the complement. -/
def maximumClique (g : Graph) : Found :=
  let found := g.complement.minimumCover true
  { found with members := g.without found.members }

/-- A largest clique whose labels can be listed in order. -/
def maximumClique? (g : Graph) : Except Fault (List Label) := g.maximumClique.listed?

/-- A clique of at least `k` nodes or, if there is none, a largest one. For more nodes than the graph
has there is nothing to search for. -/
def cliqueAtLeast (g : Graph) (k : Int) : Except Fault (Option Found) :=
  if k < 0 then .error (.negativeBound k)
  else if (g.order : Int) < k then .ok none
  else
    let found := g.complement.boundedCover (g.order - k)
    .ok (some { found with members := g.without found.members })

/-- A largest set of nodes without an edge between them. -/
def maximumIndependent (g : Graph) : Found :=
  let found := g.minimumCover true
  { found with members := g.without found.members }

end Graph

/-- What is sought in a graph. -/
inductive Mode where
  | cover
  | clique
deriving DecidableEq, Repr

/-- The modes by name. -/
def Mode.ofName : String → Except Fault Mode
  | "vertex_cover" => .ok .cover
  | "clique" => .ok .clique
  | mode => .error (.unknownMode mode)

/-- A result with what was said on the way to it. -/
structure Logged (α : Type) where
  result : Except Fault α
  log : List Log.Entry

/-- What the search for a largest clique has to say; a clique with labels of both kinds cannot be
listed. -/
def cliqueLog (found : Found) (seconds : Double) : List Log.Entry :=
  let size := Text.ofNatural found.members.length
  found.log seconds ++
    match Label.sort? found.members with
    | none => []
    | some sorted =>
      let shown := listText (sorted.map Label.display)
      [⟨.debug, .clique, s!"Maximum clique of size {size}: {shown}"⟩]

namespace Graph

/-- A smallest cover, with its log. -/
def coverLogged (g : Graph) (repair : Bool) (seconds : Double) : Logged (List Label) :=
  let found := g.minimumCover repair
  ⟨.ok found.members, found.log seconds⟩

/-- A cover of bounded size, with its log. -/
def coverAtMostLogged (g : Graph) (k : Int) (seconds : Double) : Logged (List Label) :=
  match g.coverAtMost k with
  | .error fault => ⟨.error fault, []⟩
  | .ok found => ⟨.ok found.members, found.log seconds⟩

/-- A largest clique, with its log. -/
def maximumCliqueLogged (g : Graph) (seconds : Double) : Logged (List Label) :=
  let found := g.maximumClique
  ⟨found.listed?, cliqueLog found seconds⟩

/-- A clique of a wanted size, with its log. -/
def cliqueAtLeastLogged (g : Graph) (k : Int) (seconds : Double) : Logged (List Label) :=
  match g.cliqueAtLeast k with
  | .error fault => ⟨.error fault, []⟩
  | .ok none =>
    let wanted := Text.ofInteger k
    let order := Text.ofNatural g.order
    ⟨.ok [], [⟨.debug, .clique, s!"No clique of size {wanted} in a graph with {order} vertices"⟩]⟩
  | .ok (some found) => ⟨.ok found.members, found.log seconds⟩

/-- A largest independent set, with its log. -/
def maximumIndependentLogged (g : Graph) (seconds : Double) : Logged (List Label) :=
  let found := g.maximumIndependent
  ⟨.ok found.members, found.log seconds⟩

/-- What the mode asks for: of bounded size if a bound is given, else of the best size. -/
def solve (g : Graph) (mode : Mode) (k : Option Int) (repair : Bool) (seconds : Double) :
    Logged (List Label) :=
  match mode, k with
  | .cover, none => g.coverLogged repair seconds
  | .cover, some k => g.coverAtMostLogged k seconds
  | .clique, none => g.maximumCliqueLogged seconds
  | .clique, some k => g.cliqueAtLeastLogged k seconds

end Graph

end VertexCover
