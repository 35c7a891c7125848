/-! Texts cut at a separating character. -/
namespace Keyfile.Text

/-- The pieces between the separators. A text without one is a single piece, and so is the empty
text. -/
def pieces (sep : Char) : List Char → List (List Char)
  | [] => [[]]
  | c :: cs =>
    if c = sep then [] :: pieces sep cs
    else (c :: (pieces sep cs).headD []) :: (pieces sep cs).tail

theorem pieces_ne_nil (sep : Char) (cs : List Char) : pieces sep cs ≠ [] := by
  cases cs with
  | nil => simp [pieces]
  | cons c cs => rw [pieces]; split <;> simp

/-- The pieces put together again, a separator between two. -/
def joined (sep : Char) (parts : List (List Char)) : List Char := List.intercalate [sep] parts

theorem joined_cons_cons (sep : Char) (part next : List Char) (parts : List (List Char)) :
    joined sep (part :: next :: parts) = part ++ sep :: joined sep (next :: parts) := by
  simp [joined, List.intercalate_cons_cons]

/-- What follows `lead` in a text that begins with it. -/
def after? : List Char → List Char → Option (List Char)
  | [], cs => some cs
  | _ :: _, [] => none
  | l :: lead, c :: cs => if l = c then after? lead cs else none

end Keyfile.Text

namespace Keyfile

/-- `Text.pieces` on strings. -/
def splitString (sep : Char) (s : String) : List String :=
  (Text.pieces sep s.toList).map String.ofList

/-- `Text.joined` on strings. -/
def joinStrings (sep : Char) (parts : List String) : String :=
  String.ofList (Text.joined sep (parts.map String.toList))

end Keyfile
