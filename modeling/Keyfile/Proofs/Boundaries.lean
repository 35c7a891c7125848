import Keyfile.Diagnostic.Edit
import Mathlib.Tactic.Common

/-! Ranges that are parts of a text. A change to such a range is always carried out. -/
namespace Keyfile

namespace Text

lemma eq_nil_of_bytes {cs : List Char} (h : bytes cs = 0) : cs = [] := by
  cases cs with
  | nil => rfl
  | cons c cs =>
    have := c.utf8Size_pos
    rw [bytes_cons] at h
    omega

lemma isBoundary_iff {text : List Char} {n : Nat} :
    isBoundary text n = true ↔ ∃ front back, text = front ++ back ∧ bytes front = n := by
  rw [isBoundary, Option.isSome_iff_exists]
  constructor
  · rintro ⟨⟨front, back⟩, h⟩
    exact ⟨front, back, eq_append_of_cut? h⟩
  · rintro ⟨front, back, rfl, rfl⟩
    exact ⟨(front, back), cut?_append front back⟩

/-- Of two cuts of a text, the shorter front is the start of the longer one. -/
lemma isPrefix_of_bytes_le {a b a' b' : List Char} (h : a ++ b = a' ++ b') (le : bytes a ≤ bytes a') :
    a <+: a' := by
  rcases List.append_eq_append_iff.mp h with ⟨m, rfl, -⟩ | ⟨m, rfl, -⟩
  · exact ⟨m, rfl⟩
  · rw [bytes_append] at le
    obtain rfl : m = [] := eq_nil_of_bytes (by omega)
    exact ⟨[], by simp⟩

/-- A text is cut at a byte in one way. -/
lemma append_inj_of_bytes {a b a' b' : List Char} (h : a ++ b = a' ++ b') (same : bytes a = bytes a') :
    a = a' ∧ b = b' := by
  have cut := cut?_append a b
  rw [h, same, cut?_append] at cut
  simpa [eq_comm] using cut

end Text

namespace Span

/-- The ends of the range are in order and lie between characters of the text. -/
structure Within (s : Span) (text : List Char) : Prop where
  ordered : s.start ≤ s.stop
  inside : s.stop ≤ Text.bytes text
  start_boundary : Text.isBoundary text s.start = true
  stop_boundary : Text.isBoundary text s.stop = true

theorem within_iff {s : Span} {text : List Char} :
    s.Within text ↔ ∃ front middle back, text = front ++ (middle ++ back) ∧
      s = ⟨Text.bytes front, Text.bytes front + Text.bytes middle⟩ := by
  constructor
  · rintro ⟨ordered, -, start, stop⟩
    obtain ⟨front, rest, rfl, hstart⟩ := Text.isBoundary_iff.mp start
    obtain ⟨front', back, same, hstop⟩ := Text.isBoundary_iff.mp stop
    obtain ⟨middle, rfl⟩ := Text.isPrefix_of_bytes_le same (by omega)
    rw [List.append_assoc, List.append_cancel_left_eq] at same
    rw [Text.bytes_append, hstart] at hstop
    exact ⟨front, middle, back, by rw [same], by rw [hstart, hstop]⟩
  · rintro ⟨front, middle, back, rfl, rfl⟩
    refine ⟨Nat.le_add_right _ _, by simp, ?_, ?_⟩
    · exact Text.isBoundary_iff.mpr ⟨front, middle ++ back, rfl, rfl⟩
    · exact Text.isBoundary_iff.mpr ⟨front ++ middle, back, by simp, by simp⟩

variable {text : List Char} {s t : Span}

/-- A range with its ends in order between characters does not reach over the end of the text. -/
lemma within_of_boundaries (ordered : s.start ≤ s.stop) (start : Text.isBoundary text s.start = true)
    (stop : Text.isBoundary text s.stop = true) : s.Within text := by
  obtain ⟨front, back, rfl, size⟩ := Text.isBoundary_iff.mp stop
  refine ⟨ordered, ?_, start, stop⟩
  rw [Text.bytes_append, size]
  exact Nat.le_add_right _ _

lemma slice?_append (front middle back : List Char) :
    slice? ⟨Text.bytes front, Text.bytes front + Text.bytes middle⟩ (front ++ (middle ++ back)) = some middle := by
  rw [slice?, parts?_append]
  rfl

lemma within_point_end (text : List Char) : (point (Text.bytes text)).Within text :=
  within_iff.mpr ⟨text, [], [], by simp, rfl⟩

lemma Within.point_stop (h : s.Within text) : (point s.stop).Within text :=
  ⟨Nat.le_refl _, h.inside, h.stop_boundary, h.stop_boundary⟩

lemma Within.through (hs : s.Within text) (ht : t.Within text) (ordered : s.start ≤ t.stop) :
    (Span.mk s.start t.stop).Within text :=
  ⟨ordered, ht.inside, hs.start_boundary, ht.stop_boundary⟩

end Span

lemma TextEdit.apply_of_within {e : TextEdit} {text : String} (h : e.span.Within text.toList) :
    ∃ front middle back, text.toList = front ++ (middle ++ back) ∧
      e.span = ⟨Text.bytes front, Text.bytes front + Text.bytes middle⟩ ∧
      e.apply text = String.ofList (front ++ (e.insert.toList ++ back)) := by
  obtain ⟨front, middle, back, whole, place⟩ := Span.within_iff.mp h
  refine ⟨front, middle, back, whole, place, ?_⟩
  rw [TextEdit.apply, place, whole, Span.parts?_append]
  simp

lemma TextEdit.apply_of_not_within {e : TextEdit} {text : String} (h : ¬e.span.Within text.toList) :
    e.apply text = text := by
  rw [TextEdit.apply]
  cases parts : e.span.parts? text.toList with
  | none => rfl
  | some found => exact absurd (Span.within_iff.2 ⟨_, _, _, Span.eq_append_of_parts? parts⟩) h

end Keyfile
