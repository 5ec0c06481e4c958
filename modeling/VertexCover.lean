import VertexCover.Graph.Session
import VertexCover.Main
import VertexCover.Proofs.Clique
import VertexCover.Proofs.Gadget.Decision
import VertexCover.Proofs.Search.Repair
import VertexCover.Proofs.Search.Pruning
import VertexCover.Proofs.Gadget.Least
import VertexCover.Proofs.Graph.Degree
import VertexCover.Proofs.Gadget.Nodes
import VertexCover.Proofs.Text.Blank
import VertexCover.Proofs.Text.Integer
import VertexCover.Proofs.Graph.Matrix
import VertexCover.Proofs.Text.Lines
import VertexCover.Proofs.Text.Quoted
import VertexCover.Proofs.Instance.GraphBlock
import VertexCover.Proofs.Instance.RoundTrip
import VertexCover.Proofs.Instance.Joined
import VertexCover.Proofs.Instance.BadHeader
import VertexCover.Proofs.Text.Numeral
import VertexCover.Proofs.Instance.FormulaLine
import VertexCover.Proofs.Instance.FormulaGrammar
import VertexCover.Proofs.Batch.Table
import VertexCover.Proofs.Check
import VertexCover.Proofs.Independent
import VertexCover.Proofs.Batch.Graphs
import VertexCover.Proofs.Exhaustive
import VertexCover.Proofs.HittingSet
import VertexCover.Proofs.LinearModel
import VertexCover.Proofs.Batch.Baseline
import VertexCover.Proofs.Random.Formula
import VertexCover.Proofs.Random.Planted
import VertexCover.Proofs.FileTree
import VertexCover.Proofs.Random.Suite
import VertexCover.Proofs.Search.Calls
import VertexCover.Proofs.Search.Renaming
import VertexCover.Proofs.Graph.Session
import VertexCover.Proofs.Batch.Report
import VertexCover.Proofs.Command.Report
import VertexCover.Proofs.Formula.Partial
import VertexCover.Proofs.Formula.Texts
import VertexCover.Proofs.Graph.RoundTrip
import VertexCover.Proofs.Graph.Complement
import VertexCover.Proofs.Search.Tree
import VertexCover.Proofs.Graph.Views
import VertexCover.Proofs.Search.Exposed
import VertexCover.Proofs.Instance.RowGrammar
