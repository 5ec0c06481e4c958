import VertexCover.Fault

/-! Draws from a stream of numbers.

Everything random is made from a function that gives the next number of a stream and the stream after
it; a linear congruential generator is the stream that the program runs on. -/
namespace VertexCover.Random

/-- The next number of a stream, with the stream after it. -/
abbrev Next (γ : Type) := γ → Nat × γ

variable {γ : Type}

/-- A draw from `low` up to below `high`. -/
def below (next : Next γ) (low high : Int) (s : γ) : Int × γ :=
  let (n, s) := next s
  (low + n % (high - low), s)

/-- So many draws from `low` up to below `high`, in their order. -/
def many (next : Next γ) (low high : Int) : Nat → γ → List Int × γ
  | 0, s => ([], s)
  | count + 1, s =>
    let (n, s) := below next low high s
    let (rest, s) := many next low high count s
    (n :: rest, s)

/-- The numbers in an array, and its length, lie below this power of two, the sixty-third. -/
def wordLimit : Int := 9223372036854775808

/-- The number of bytes that an entry of an array takes up. -/
def entryBytes : Int := 8

/-- The length of an array is a number that fits into a word, is not negative, and leaves the size of
the array in bytes a number that fits too. -/
def checkLength (count : Int) : Except Fault Unit :=
  if count < -wordLimit || wordLimit ≤ count then .error .dimensionTooLarge
  else if count < 0 then .error .negativeDraws
  else if wordLimit ≤ count * entryBytes then .error .arrayTooLarge
  else .ok ()

/-- The draws of a whole array. Of an array without entries nothing is asked; else the range must
have numbers that fit, and not be empty, before the length counts. -/
def array (next : Next γ) (low high count : Int) (s : γ) : Except Fault (List Int × γ) := do
  if count = 0 then return ([], s)
  if wordLimit < high then throw .rangeTooHigh
  if high ≤ low then throw .emptyRange
  checkLength count
  return many next low high count.toNat s

/-- The state of a linear congruential generator. -/
structure Lcg where
  state : Nat
deriving DecidableEq, Repr

/-- States lie below this power of two, the thirty-first. -/
def Lcg.modulus : Nat := 2147483648

/-- One more than the greatest number that a step can give, the fifteenth power of two. -/
def Lcg.range : Nat := 32768

/-- The generator started from a seed. -/
def Lcg.ofSeed (seed : Int) : Lcg := ⟨(seed % (modulus : Int)).toNat⟩

/-- One step of the generator; the high bits of the new state are the number drawn. -/
def Lcg.next : Next Lcg := fun g =>
  let state := (g.state * 1103515245 + 12345) % modulus
  (state / (modulus / range), ⟨state⟩)

/-- The generator for a seed that must not be negative. -/
def Lcg.ofSeed? (seed : Int) : Except Fault Lcg :=
  if seed < 0 then .error .negativeSeed else .ok (.ofSeed seed)

end VertexCover.Random
