import VertexCover.Log

/-! Numbered instances of a batch. -/
namespace VertexCover

/-- A numbered problem instance, or the reason why there is none. -/
structure Instance (ε α : Type) where
  index : Int
  content : Except ε α

namespace Instance

/-- Numbers the items from one on. -/
def number {ε α : Type} (items : List (Except ε α)) : List (Instance ε α) :=
  items.zipIdx.map fun (content, i) => ⟨(i : Int) + 1, content⟩

/-- The instance with its reason put into words. -/
def describe {ε α : Type} (message : Int → ε → String) (i : Instance ε α) : Instance String α where
  index := i.index
  content :=
    match i.content with
    | .ok a => .ok a
    | .error reason => .error (message i.index reason)

/-- One warning for every instance that could not be read. -/
def warnings {α : Type} (instances : List (Instance String α)) : List Log.Entry :=
  instances.filterMap fun i =>
    match i.content with
    | .ok _ => none
    | .error message => some ⟨.warning, .instances, message⟩

end Instance

end VertexCover
