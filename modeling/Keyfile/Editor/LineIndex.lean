import Keyfile.Editor.Position

/-! Positions by a table of the starts of lines. The table is made once for a text; the line of an offset is then
found by halving it, and only this line is read to count its columns. -/
namespace Keyfile

namespace Text

/-- Where the lines of a text start: at its beginning and behind each line break. -/
def lineStarts (text : List Char) : List Nat := 0 :: (offsetsOf '\n' 0 text).map (· + 1)

/-- The last boundary up to an offset, found by stepping back. -/
def boundaryUpTo (text : List Char) : Nat → Nat
  | 0 => 0
  | n + 1 => if isBoundary text (n + 1) then n + 1 else boundaryUpTo text n

/-- The offset of a column on a line, of which `units` columns and all before `offset` have been passed. -/
def columnOffset (column : Nat) : List Char → (offset units : Nat) → Nat
  | [], offset, _ => offset
  | c :: cs, offset, units =>
    if column ≤ units then offset else columnOffset column cs (offset + c.utf8Size) (units + Text.units c)

end Text

/-- A text with the starts of its lines. -/
structure LineIndex where
  text : List Char
  starts : Array Nat
  deriving Repr

namespace LineIndex

def of (text : List Char) : LineIndex := ⟨text, (Text.lineStarts text).toArray⟩

/-- The first index from `low` up to `high` at which an entry is larger than `offset`; the entries are taken to be in
order. -/
def firstAbove (starts : Array Nat) (offset low high : Nat) : Nat :=
  if low < high then
    let middle := (low + high) / 2
    if starts.getD middle 0 ≤ offset then firstAbove starts offset (middle + 1) high
    else firstAbove starts offset low middle
  else low
termination_by high - low

/-- The part of the text between two offsets. -/
def slice (index : LineIndex) (start stop : Nat) : List Char := (Span.slice? ⟨start, stop⟩ index.text).getD []

/-- The position of a byte offset: the last line that starts up to it, and what this line has before it. -/
def position (index : LineIndex) (offset : Nat) : Position :=
  let offset := Text.boundaryUpTo index.text (min offset (Text.bytes index.text))
  let line := firstAbove index.starts offset 0 index.starts.size - 1
  ⟨line, Text.width (index.slice (index.starts.getD line 0) offset)⟩

/-- The byte offset of a position. -/
def offset? (index : LineIndex) (p : Position) : Option Nat :=
  index.starts[p.line]?.map fun start =>
    let line := (index.slice start (Text.bytes index.text)).takeWhile (· != '\n')
    Text.columnOffset p.column line start 0

end LineIndex
end Keyfile
