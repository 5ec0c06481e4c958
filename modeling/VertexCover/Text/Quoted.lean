import VertexCover.Text.Integer
import VertexCover.Text.Printable

/-! Quoted text as it appears in messages.

A text stands in single quotes, or in double quotes if it holds a single quote and no double one.
The quote in use and the backslash are escaped, and so is every character that is not printable. -/
namespace VertexCover.Text

/-- A number in lower-case hexadecimal digits, zeros in front up to the width. -/
def hex (width n : Nat) : List Char := padLeft width '0' (Nat.toDigits 16 n)

/-- The spelling of one character between the given quotes. -/
def escape (quote c : Char) : List Char :=
  if c = quote || c = '\\' then ['\\', c]
  else if c = '\n' then ['\\', 'n']
  else if c = '\r' then ['\\', 'r']
  else if c = '\t' then ['\\', 't']
  else if isPrintable c then [c]
  else if c.toNat < 0x100 then '\\' :: 'x' :: hex 2 c.toNat
  else if c.toNat < 0x10000 then '\\' :: 'u' :: hex 4 c.toNat
  else '\\' :: 'U' :: hex 8 c.toNat

/-- The quote a text is put in. -/
def quoteFor (cs : List Char) : Char :=
  if cs.contains '\x27' && !cs.contains '\x22' then '\x22' else '\x27'

/-- The text in quotes. -/
def quote (cs : List Char) : List Char :=
  let q := quoteFor cs
  q :: cs.flatMap (escape q) ++ [q]

/-- The string in quotes. -/
def quoted (s : String) : String := String.ofList (quote s.toList)

end VertexCover.Text
