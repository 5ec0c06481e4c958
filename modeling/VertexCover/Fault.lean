import VertexCover.Label

/-! What can go wrong, as causes.

`Malformed` holds the ways in which an instance breaks its format; `Fault` adds the refusals of the
operations. Each cause has one wording, given by `message`; causes without a wording of their own
have none. -/
namespace VertexCover

/-- Ways in which a graph block, matrix, formula or formula line breaks the instance format. -/
inductive Malformed where
  | matrixShape (order : Nat) (shape : List Nat)
  | rowLength (expected : Int) (found : Nat) (row : String)
  | rowEntry (token : String)
  | literalKind (shown : String)
  | literalCount (count : Nat)
  | zeroLiteral
  | formulaLine (line : String)
deriving DecidableEq, Repr

/-- A shape written with parentheses; a single extent keeps its comma. -/
def shapeText : List Nat → String
  | [extent] => "(" ++ Text.ofNatural extent ++ ",)"
  | extents => "(" ++ String.intercalate ", " (extents.map Text.ofNatural) ++ ")"

/-- The wording of a format violation. -/
def Malformed.message : Malformed → String
  | .matrixShape order shape =>
    let n := Text.ofNatural order
    s!"Adjacency matrix must be {n}x{n}, got shape {shapeText shape}"
  | .rowLength expected found row =>
    let expected := Text.ofInteger expected
    let found := Text.ofNatural found
    s!"Expected {expected} entries in row, got {found}: {Text.quoted row}"
  | .rowEntry token => s!"Invalid adjacency entry {Text.quoted token}"
  | .literalKind shown => s!"Literal {shown} is not an integer"
  | .literalCount count => s!"Literal count {Text.ofNatural count} is not a multiple of 3"
  | .zeroLiteral => "0 is not a literal"
  | .formulaLine line => s!"Invalid literal in {Text.quoted line}"

/-- Failures of the file tree; each names the path as it was given. -/
inductive FileFault where
  | missing (path : String)
  | alreadyExists (path : String)
  | notDirectory (path : String)
  | isDirectory (path : String)
  | nameTooLong (path : String)
  | noParent (parent : String)
deriving DecidableEq, Repr

/-- The wording of a file failure. -/
def FileFault.message : FileFault → String
  | .missing path => s!"[Errno 2] No such file or directory: {Text.quoted path}"
  | .alreadyExists path => s!"[Errno 17] File exists: {Text.quoted path}"
  | .notDirectory path => s!"[Errno 20] Not a directory: {Text.quoted path}"
  | .isDirectory path => s!"[Errno 21] Is a directory: {Text.quoted path}"
  | .nameTooLong path => s!"[Errno 36] File name too long: {Text.quoted path}"
  | .noParent parent => s!"Cannot save file into a non-existent directory: '{parent}'"

/-- Why an operation fails. -/
inductive Fault where
  | malformed (cause : Malformed)
  | file (cause : FileFault)
  | nullInPath
  | undecodable
  | negativeOrder (n : Int)
  | outsideEdge (u v : Label)
  | raggedMatrix
  | vectorLength (length order : Nat)
  | frozenGraph
  | unknownNode (v : Label)
  | negativeBound (k : Int)
  | mixedLabels
  | badIndex
  | wrongKind
  | exhaustiveLimit (limit : Int) (order : Nat)
  | unboundVariable (v : Nat)
  | integerText (text : String)
  | integerLength (digits : Nat)
  | integerTooLarge
  | infiniteNumber
  | undefinedNumber
  | unknownMode (mode : String)
  | negativeNodeCount (n : Int)
  | noVariables
  | negativeSeed
  | negativeDraws
  | emptyRange
  | rangeTooHigh
  | dimensionTooLarge
  | arrayTooLarge
  | shapeTooShort (length : Nat)
  | shapeTooLong
  | listText (text : String)
  | shapeListText (text : String)
deriving DecidableEq, Repr

/-- The wording of a failure, for those that have one. -/
def Fault.message : Fault → Option String
  | .malformed cause => some cause.message
  | .file cause => some cause.message
  | .nullInPath => some "embedded null byte"
  | .undecodable => none
  | .negativeOrder n => some s!"Vertex count must be non-negative, got {Text.ofInteger n}"
  | .outsideEdge u v => some s!"Edge ({u.bare}, {v.bare}) references a vertex outside the graph"
  | .raggedMatrix => none
  | .vectorLength length order =>
    let length := Text.ofNatural length
    some s!"Membership vector has length {length}, graph has {Text.ofNatural order} vertices"
  | .frozenGraph => some "Frozen graph can't be modified"
  | .unknownNode v => some s!"The node {v.bare} is not in the graph."
  | .negativeBound k => some s!"k must be non-negative, got {Text.ofInteger k}"
  | .mixedLabels => none
  | .badIndex => none
  | .wrongKind => none
  | .exhaustiveLimit limit order =>
    let limit := Text.ofInteger limit
    some s!"Brute force limited to {limit} vertices, graph has {Text.ofNatural order}"
  | .unboundVariable v => some (Text.ofNatural v)
  | .integerText text =>
    let shown := String.ofList ((Text.quote text.toList).take 200)
    some s!"invalid literal for int() with base 10: {shown}"
  | .integerLength digits =>
    let limit := Text.ofNatural Text.digitLimit
    some (s!"Exceeds the limit ({limit} digits) for integer string conversion: value has " ++
      s!"{Text.ofNatural digits} digits; use sys.set_int_max_str_digits() to increase the limit")
  | .integerTooLarge => some "int too large to convert to float"
  | .infiniteNumber => some "cannot convert float infinity to integer"
  | .undefinedNumber => some "cannot convert float NaN to integer"
  | .unknownMode mode => some s!"Unknown mode '{mode}'. Available: vertex_cover, clique"
  | .negativeNodeCount n => some s!"Negative number of nodes not valid: {Text.ofInteger n}"
  | .noVariables => some "Need at least one variable to build clauses"
  | .negativeSeed => some "expected non-negative integer"
  | .negativeDraws => some "negative dimensions are not allowed"
  | .emptyRange => some "low >= high"
  | .rangeTooHigh => some "high is out of bounds for int64"
  | .dimensionTooLarge => some "Maximum allowed dimension exceeded"
  | .arrayTooLarge =>
    some ("array is too big; `arr.size * arr.dtype.itemsize` is larger than the maximum possible " ++
      "size.")
  | .shapeTooShort length =>
    some s!"not enough values to unpack (expected 2, got {Text.ofNatural length})"
  | .shapeTooLong => some "too many values to unpack (expected 2)"
  | .listText text => some s!"Invalid list format: {text}"
  | .shapeListText text => some s!"Invalid shape list: {text}"

end VertexCover
