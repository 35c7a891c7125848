import Keyfile.Proofs.Boundaries

/-! Changes of a text, taken back and put together. A change is undone by putting the old part back in place of
the new one, and two changes that do not overlap can be carried out in either order, once the later one is moved
by as much as the earlier one makes the text longer or shorter. -/
namespace Keyfile

namespace Span
variable {s t : Span} {text : List Char}

/-- Two ranges that do not overlap cut the text into five parts. -/
lemma exists_parts_of_le (hs : s.Within text) (ht : t.Within text) (apart : s.stop ≤ t.start) :
    ∃ front first between second back, text = front ++ (first ++ (between ++ (second ++ back))) ∧
      s = ⟨Text.bytes front, Text.bytes front + Text.bytes first⟩ ∧
      t = ⟨Text.bytes (front ++ (first ++ between)),
        Text.bytes (front ++ (first ++ between)) + Text.bytes second⟩ := by
  obtain ⟨front, first, rest, rfl, rfl⟩ := within_iff.mp hs
  obtain ⟨before, second, back, whole, rfl⟩ := within_iff.mp ht
  rw [← List.append_assoc] at whole
  obtain ⟨between, rfl⟩ := Text.isPrefix_of_bytes_le whole (by rw [Text.bytes_append]; exact apart)
  rw [List.append_assoc, List.append_assoc, List.append_assoc, List.append_cancel_left_eq,
    List.append_cancel_left_eq] at whole
  refine ⟨front, first, between, second, back, by rw [whole], rfl, ?_⟩
  rw [List.append_assoc]

end Span

namespace TextEdit

/-- A change of the middle of three parts leaves the outer ones. -/
lemma apply_append (front middle back : List Char) (insert : String) :
    apply ⟨⟨Text.bytes front, Text.bytes front + Text.bytes middle⟩, insert⟩
        (String.ofList (front ++ (middle ++ back))) =
      String.ofList (front ++ (insert.toList ++ back)) := by
  rw [apply, String.toList_ofList, Span.parts?_append]
  simp

/-- Where an offset behind a change comes to lie once the change is made. -/
def carry (first : TextEdit) (offset : Nat) : Nat :=
  offset + Text.bytes first.insert.toList - (first.span.stop - first.span.start)

/-- A change behind another one, once that one is made. -/
def carried (first later : TextEdit) : TextEdit :=
  ⟨⟨first.carry later.span.start, first.carry later.span.stop⟩, later.insert⟩

lemma carry_eq (front middle behind : List Char) (insert : String) (more : Nat) :
    carry ⟨⟨Text.bytes front, Text.bytes front + Text.bytes middle⟩, insert⟩
        (Text.bytes (front ++ (middle ++ behind)) + more) =
      Text.bytes (front ++ (insert.toList ++ behind)) + more := by
  simp only [carry, Text.bytes_append]
  omega

/-- What a change of a part of a text does to it. -/
structure Replaces (e : TextEdit) (text : String) : Prop where
  size : Text.bytes (e.apply text).toList =
    Text.bytes text.toList - (e.span.stop - e.span.start) + Text.bytes e.insert.toList
  start_boundary : Text.isBoundary (e.apply text).toList e.span.start = true
  stop_boundary :
    Text.isBoundary (e.apply text).toList (e.span.start + Text.bytes e.insert.toList) = true
  /-- The part that stood there, put back, restores the text. -/
  undone : ∃ old : String, e.span.slice? text.toList = some old.toList ∧
    apply ⟨⟨e.span.start, e.span.start + Text.bytes e.insert.toList⟩, old⟩ (e.apply text) = text

lemma replaces_of_within {e : TextEdit} {text : String} (h : e.span.Within text.toList) : e.Replaces text := by
  obtain ⟨front, middle, back, whole, place, changed⟩ := apply_of_within h
  have chars : (e.apply text).toList = front ++ (e.insert.toList ++ back) := by
    rw [changed, String.toList_ofList]
  have written : (Span.mk (Text.bytes front) (Text.bytes front + Text.bytes e.insert.toList)).Within
      (e.apply text).toList := Span.within_iff.mpr ⟨front, e.insert.toList, back, chars, rfl⟩
  refine ⟨?_, ?_, ?_, String.ofList middle, ?_, ?_⟩
  · rw [chars, whole, place]
    simp only [Text.bytes_append]
    omega
  · rw [place]
    exact written.start_boundary
  · rw [place]
    exact written.stop_boundary
  · rw [whole, place, Span.slice?_append, String.toList_ofList]
  · rw [changed, place]
    rw [apply_append, String.toList_ofList, ← whole, String.ofList_toList]

/-- Two changes that do not overlap stay possible after each other, and their order does not matter. -/
structure Commute (first later : TextEdit) (text : String) : Prop where
  first_within : first.span.Within (later.apply text).toList
  later_within : (first.carried later).span.Within (first.apply text).toList
  same : first.apply (later.apply text) = (first.carried later).apply (first.apply text)

lemma commute_of_le {first later : TextEdit} {text : String} (hf : first.span.Within text.toList)
    (hl : later.span.Within text.toList) (apart : first.span.stop ≤ later.span.start) :
    first.Commute later text := by
  obtain ⟨front, old, between, old', back, whole, place, place'⟩ := Span.exists_parts_of_le hf hl apart
  obtain ⟨span, insert⟩ := first
  obtain ⟨span', insert'⟩ := later
  simp only at place place'
  subst place place'
  have text_eq : text = String.ofList (front ++ (old ++ (between ++ (old' ++ back)))) := by
    rw [← whole, String.ofList_toList]
  have behind : text = String.ofList ((front ++ (old ++ between)) ++ (old' ++ back)) := by
    rw [text_eq]
    simp only [List.append_assoc]
  -- each change is one of the middle of three parts, whatever the other one did
  have by_first := apply_append front old (between ++ (old' ++ back)) insert
  have by_later := apply_append (front ++ (old ++ between)) old' back insert'
  rw [← text_eq] at by_first
  rw [← behind] at by_later
  have moved := carry_eq front old between insert
  have moved_start := moved 0
  simp only [Nat.add_zero] at moved_start
  refine ⟨?_, ?_, ?_⟩
  · rw [by_later, String.toList_ofList]
    exact Span.within_iff.mpr ⟨front, old, between ++ (insert'.toList ++ back), by simp, rfl⟩
  · rw [by_first, String.toList_ofList, carried, moved_start, moved]
    exact Span.within_iff.mpr ⟨front ++ (insert.toList ++ between), old', back, by simp, rfl⟩
  · have by_first' := apply_append front old (between ++ (insert'.toList ++ back)) insert
    have by_later' := apply_append (front ++ (insert.toList ++ between)) old' back insert'
    simp only [List.append_assoc] at by_later by_later'
    rw [by_later, by_first', by_first, carried, moved_start, moved, by_later']

/-- A change of a range with its ends in order between characters replaces that range and can be undone; it and
a change behind it give the same text in either order; and a change of any other range does nothing. -/
theorem edits_undo_and_compose (e : TextEdit) (text : String) :
    (e.span.start ≤ e.span.stop → Text.isBoundary text.toList e.span.start = true →
        Text.isBoundary text.toList e.span.stop = true →
      e.Replaces text ∧
        ∀ later : TextEdit, later.span.start ≤ later.span.stop →
          Text.isBoundary text.toList later.span.start = true →
          Text.isBoundary text.toList later.span.stop = true → e.span.stop ≤ later.span.start →
          e.Commute later text) ∧
    (¬(e.span.start ≤ e.span.stop ∧ Text.isBoundary text.toList e.span.start = true ∧
        Text.isBoundary text.toList e.span.stop = true) → e.apply text = text) := by
  constructor
  · intro ordered start stop
    have within := Span.within_of_boundaries ordered start stop
    refine ⟨replaces_of_within within, ?_⟩
    intro later ordered' start' stop' apart
    exact commute_of_le within (Span.within_of_boundaries ordered' start' stop') apart
  · intro other
    apply apply_of_not_within
    intro within
    exact other ⟨within.ordered, within.start_boundary, within.stop_boundary⟩

/-- Two changes of letters of two bytes each, the second one moved by a byte; and a range that starts inside a
letter. -/
theorem edits_undo_and_compose_accented :
    Replaces ⟨⟨1, 3⟩, "xyz"⟩ "aé=ü" ∧ Commute ⟨⟨1, 3⟩, "xyz"⟩ ⟨⟨4, 6⟩, ""⟩ "aé=ü" ∧
      carried ⟨⟨1, 3⟩, "xyz"⟩ ⟨⟨4, 6⟩, ""⟩ = ⟨⟨5, 7⟩, ""⟩ ∧ apply ⟨⟨2, 3⟩, "x"⟩ "aé=ü" = "aé=ü" := by
  have both := (edits_undo_and_compose ⟨⟨1, 3⟩, "xyz"⟩ "aé=ü").1 (by decide) (by decide +kernel) (by decide +kernel)
  have inside := (edits_undo_and_compose ⟨⟨2, 3⟩, "x"⟩ "aé=ü").2 (by decide +kernel)
  exact ⟨both.1, both.2 _ (by decide) (by decide +kernel) (by decide +kernel) (by decide), by decide +kernel, inside⟩

end TextEdit

end Keyfile
