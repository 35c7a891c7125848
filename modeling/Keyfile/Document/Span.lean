import Keyfile.Text.Bytes

/-! Ranges of byte offsets in a text. -/
namespace Keyfile

/-- The bytes from `start` up to, not including, `stop`. Nothing keeps the ends in order or inside a
text: trees made elsewhere may carry any two offsets. -/
structure Span where
  start : Nat
  stop : Nat
  deriving DecidableEq, Repr, Inhabited

namespace Span

/-- The empty range at an offset. -/
def point (offset : Nat) : Span := ⟨offset, offset⟩

def shift (s : Span) (n : Nat) : Span := ⟨s.start + n, s.stop + n⟩

/-- The parts of a text before, in and after a range, when its ends are in order and lie between
characters. -/
def parts? (s : Span) (text : List Char) : Option (List Char × List Char × List Char) :=
  if s.stop < s.start then none
  else
    (Text.cut? text s.start).bind fun (front, rest) =>
      (Text.cut? rest (s.stop - s.start)).map fun (middle, back) => (front, middle, back)

/-- The part of a text that a range covers. -/
def slice? (s : Span) (text : List Char) : Option (List Char) := (s.parts? text).map (·.2.1)

/-- A range laid around the middle of three parts finds them again. -/
theorem parts?_append (front middle back : List Char) :
    parts? ⟨Text.bytes front, Text.bytes front + Text.bytes middle⟩ (front ++ (middle ++ back))
      = some (front, middle, back) := by
  rw [parts?, if_neg (by simp), Text.cut?_append]
  simp [Text.cut?_append]

/-- The parts around a range give the text back, and the range starts and stops between them. -/
theorem eq_append_of_parts? {s : Span} {text front middle back : List Char}
    (h : s.parts? text = some (front, middle, back)) :
    text = front ++ (middle ++ back) ∧ s = ⟨Text.bytes front, Text.bytes front + Text.bytes middle⟩ := by
  rw [parts?] at h
  split at h
  next => simp at h
  next ordered =>
    obtain ⟨⟨a, rest⟩, first, h⟩ := Option.bind_eq_some_iff.1 h
    obtain ⟨⟨m, b⟩, second, same⟩ := Option.map_eq_some_iff.1 h
    simp only [Prod.mk.injEq] at same
    obtain ⟨rfl, rfl, rfl⟩ := same
    obtain ⟨rfl, hstart⟩ := Text.eq_append_of_cut? first
    obtain ⟨rfl, hstop⟩ := Text.eq_append_of_cut? second
    refine ⟨rfl, ?_⟩
    cases s
    simp only [Span.mk.injEq] at *
    omega

end Span
end Keyfile
