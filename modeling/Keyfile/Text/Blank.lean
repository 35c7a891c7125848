/-! Blank characters: those with the Unicode property White_Space. -/
namespace Keyfile.Text

/-- The twenty-five characters that count as blank. -/
def isBlank (c : Char) : Bool :=
  let n := c.toNat
  (9 ≤ n && n ≤ 13) || n == 0x20 || n == 0x85 || n == 0xA0 || n == 0x1680 ||
    (0x2000 ≤ n && n ≤ 0x200A) || n == 0x2028 || n == 0x2029 || n == 0x202F || n == 0x205F ||
    n == 0x3000

/-- The text without the blanks at its end. -/
def trimEnd (cs : List Char) : List Char := (cs.reverse.dropWhile isBlank).reverse

/-- The text without the blanks at either end. -/
def trim (cs : List Char) : List Char := trimEnd (cs.dropWhile isBlank)

theorem trimEnd_append_blanks (cs : List Char) :
    trimEnd cs ++ (cs.reverse.takeWhile isBlank).reverse = cs := by
  rw [trimEnd, ← List.reverse_append, List.takeWhile_append_dropWhile, List.reverse_reverse]

end Keyfile.Text

namespace Keyfile

/-- `Text.trim` on strings. -/
def trimmed (s : String) : String := String.ofList (Text.trim s.toList)

end Keyfile
