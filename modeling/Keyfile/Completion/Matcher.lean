import Keyfile.Text.CaseFold

/-! Typed text found anywhere in a candidate. -/
namespace Keyfile

/-- Whether the first list stands as one stretch in the second. -/
def occursIn {α : Type} [BEq α] (part : List α) : List α → Bool
  | [] => part.isEmpty
  | x :: xs => part.isPrefixOf (x :: xs) || occursIn part xs

/-- Whether a candidate holds the typed text, with or without regard to case. Matchers that make a pattern of the
typed text first fall back to regard for case where a text is too long for a pattern; this one makes none, and
compares texts of any length as it is told. -/
def matchesTyped (ignoreCase : Bool) (typed candidate : String) : Bool :=
  if ignoreCase then
    occursIn (typed.toList.map Text.foldCase) (candidate.toList.map Text.foldCase)
  else occursIn typed.toList candidate.toList

end Keyfile
