import Keyfile.Document.Span

/-! Lines and columns, as editors count them: columns in UTF-16 units. -/
namespace Keyfile

/-- A line and a column, both counted from zero. -/
structure Position where
  line : Nat
  column : Nat
  deriving DecidableEq, Repr, Inhabited

structure Range where
  start : Position
  stop : Position
  deriving DecidableEq, Repr, Inhabited

namespace Text

/-- The number of UTF-16 units of a character. -/
def units (c : Char) : Nat := if c.toNat < 0x10000 then 1 else 2

/-- Length of a text in UTF-16 units. -/
def width : List Char → Nat
  | [] => 0
  | c :: cs => units c + width cs

/-- The longest start of a text that has at most `n` bytes. -/
def atMost : List Char → Nat → List Char
  | [], _ => []
  | c :: cs, n => if c.utf8Size ≤ n then c :: atMost cs (n - c.utf8Size) else []

/-- The position after one more character. -/
def advance (p : Position) (c : Char) : Position :=
  if c = '\n' then ⟨p.line + 1, 0⟩ else ⟨p.line, p.column + units c⟩

/-- The position of a byte offset. Offsets past the end count as the end, and offsets inside a
character as its start. -/
def positionAt (text : List Char) (offset : Nat) : Position :=
  (atMost text offset).foldl advance ⟨0, 0⟩

/-- The bytes of a line before a column: up to the first character that starts there or later, or to
the end of the line. -/
def bytesBefore : List Char → Nat → Nat
  | [], _ => 0
  | c :: cs, column =>
    if column = 0 ∨ c = '\n' then 0 else c.utf8Size + bytesBefore cs (column - units c)

/-- The byte offset of a position; there is none for a line past the last. -/
def offsetAt? : List Char → Nat → Nat → Option Nat
  | cs, 0, column => some (bytesBefore cs column)
  | [], _ + 1, _ => none
  | c :: cs, line + 1, column =>
    (offsetAt? cs (if c = '\n' then line else line + 1) column).map (c.utf8Size + ·)

def rangeOf (text : List Char) (s : Span) : Range := ⟨positionAt text s.start, positionAt text s.stop⟩

end Text
end Keyfile
