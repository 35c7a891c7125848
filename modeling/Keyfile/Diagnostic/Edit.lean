import Keyfile.Document.Span

/-! Changes to a text. -/
namespace Keyfile

/-- Replaces a range of a text. -/
structure TextEdit where
  span : Span
  insert : String
  deriving DecidableEq, Repr, Inhabited

namespace TextEdit

def insertion (offset : Nat) (text : String) : TextEdit := ⟨.point offset, text⟩

def deletion (span : Span) : TextEdit := ⟨span, ""⟩

/-- The text after the change. A range that is no part of the text changes nothing. -/
def apply (e : TextEdit) (text : String) : String :=
  match e.span.parts? text.toList with
  | none => text
  | some (front, _, back) => String.ofList (front ++ e.insert.toList ++ back)

end TextEdit
end Keyfile
