import VertexCover.Text.Quoted

/-! Node labels: integers and texts.

The two kinds are never equal. Integers come first in ascending order, then texts in the order of
their characters; a list that mixes the kinds is not sorted by the program, see `sort?`. -/
namespace VertexCover

/-- The name of a node. -/
inductive Label where
  | int (n : Int)
  | text (s : String)
deriving DecidableEq, Repr

namespace Label

/-- The order in which node sets are listed. -/
def le : Label → Label → Bool
  | .int a, .int b => a ≤ b
  | .int _, .text _ => true
  | .text _, .int _ => false
  | .text a, .text b => a ≤ b

/-- The label is an integer. -/
def isInt : Label → Bool
  | .int _ => true
  | .text _ => false

/-- The labels in their listing order. -/
def sort (labels : List Label) : List Label := labels.mergeSort le

/-- The labels are all integers or all texts. -/
def comparable (labels : List Label) : Bool :=
  labels.all isInt || labels.all fun label => !label.isInt

/-- The labels in their order, if they can be compared with each other. -/
def sort? (labels : List Label) : Option (List Label) :=
  if comparable labels then some (sort labels) else none

/-- The bare text of a label. -/
def bare : Label → String
  | .int n => Text.ofInteger n
  | .text s => s

/-- The label as it stands inside a list: texts in quotes. -/
def display : Label → String
  | .int n => Text.ofInteger n
  | .text s => Text.quoted s

/-- The labels `0, …, n - 1`. -/
def upTo (n : Nat) : List Label := (List.range n).map fun i => .int (i : Nat)

theorem upTo_nodup (n : Nat) : (upTo n).Nodup := by
  rw [upTo, List.nodup_iff_pairwise_ne, List.pairwise_map]
  exact List.nodup_range.imp fun different same => different (by injection same with same; omega)

end Label

/-- The text of a list: its items between brackets, divided by commas. -/
def listText (items : List String) : String := "[" ++ String.intercalate ", " items ++ "]"

end VertexCover
