import Keyfile.Editor.LineIndex
import Keyfile.Proofs.Positions

/-! The table of line starts gives the positions and the offsets of the text. Up to the line of an offset the
entries of the table are at most the offset, and from there on they are larger; so halving finds this line. -/
namespace Keyfile
namespace Text

section Table
variable {text line : List Char} {n : Nat}

lemma lineStarts_of_oneLine (h : '\n' ∉ line) : lineStarts line = [0] := by
  rw [lineStarts, offsetsOf_of_notMem h]
  rfl

lemma lineStarts_append (h : '\n' ∉ line) (rest : List Char) :
    lineStarts (line ++ '\n' :: rest) = 0 :: (lineStarts rest).map (bytes line + 1 + ·) := by
  have later : offsetsOf '\n' (bytes line + 1) rest = (offsetsOf '\n' 0 rest).map (· + (bytes line + 1)) := by
    rw [← offsetsOf_add, Nat.zero_add]
  rw [lineStarts, offsetsOf_append, offsetsOf_of_notMem h, List.nil_append, Nat.zero_add, offsetsOf, if_pos rfl,
    utf8Size_lineBreak, later, lineStarts]
  simp only [List.singleton_append, List.map_cons, List.map_map, Nat.add_zero]
  refine congrArg _ (congrArg _ (List.map_congr_left fun q _ => ?_))
  simp only [Function.comp_apply]
  omega

/-- The table holds the start of each line. -/
lemma lineStarts_eq (text : List Char) : lineStarts text = (List.range (lines text).length).map (lineStart text) := by
  induction text using lines_induction with
  | last line oneLine =>
    rw [lineStarts_of_oneLine oneLine, lines_of_oneLine oneLine]
    rfl
  | more line rest oneLine ih =>
    rw [lineStarts_append oneLine, lines_append oneLine, ih, List.length_cons, List.range_succ_eq_map, List.map_cons,
      List.map_map, List.map_map]
    refine congrArg _ (List.map_congr_left fun n _ => ?_)
    exact (lineStart_succ oneLine rest n).symm

/-- A line starts at its first column. -/
lemma position_lineStart (h : (lines text)[n]? = some line) :
    offsetAt? text n 0 = some (lineStart text n) ∧ positionAt text (lineStart text n) = ⟨n, 0⟩ := by
  obtain ⟨above, below, rfl, -, -, start, position, offsets⟩ := exists_line h
  have first : bytesBefore line 0 = 0 := by cases line <;> simp [bytesBefore]
  rw [offsets, first, ← start, positionAt_append, position]
  exact ⟨rfl, rfl⟩

/-- The lines that start up to an offset are those up to its own. -/
lemma lineStart_le_iff (h : (lines text)[n]? = some line) (offset : Nat) :
    lineStart text n ≤ offset ↔ n ≤ (positionAt text offset).line := by
  obtain ⟨found, place⟩ := position_lineStart h
  constructor
  · intro le
    have order := positionAt_mono text le
    rw [place, Position.le_iff] at order
    simp only at order
    omega
  · intro le
    have order : ⟨n, 0⟩ ≤ positionAt text offset := by
      rw [Position.le_iff]
      simp only
      omega
    exact (offsetAt?_mono order found (offsetAt?_positionAt_floor text offset)).trans (bytes_atMost_le text offset)

end Table

section Reading
variable {line : List Char}

lemma isGreatest_boundaryUpTo (text : List Char) (n : Nat) :
    IsGreatest {b | isBoundary text b = true ∧ b ≤ n} (boundaryUpTo text n) := by
  induction n with
  | zero => exact ⟨⟨isBoundary_iff.mpr ⟨[], text, rfl, rfl⟩, Nat.le_refl 0⟩, fun b member => member.2⟩
  | succ n ih =>
    rw [boundaryUpTo]
    split
    next here => exact ⟨⟨here, Nat.le_refl _⟩, fun b member => member.2⟩
    next inside =>
      refine ⟨⟨ih.1.1, ih.1.2.trans (Nat.le_succ n)⟩, ?_⟩
      rintro b ⟨boundary, le⟩
      have other : b ≠ n + 1 := by
        rintro rfl
        exact inside boundary
      exact ih.2 ⟨boundary, by omega⟩

lemma boundaryUpTo_eq (text : List Char) (offset : Nat) :
    boundaryUpTo text (min offset (bytes text)) = bytes (atMost text offset) :=
  (isGreatest_boundaryUpTo text _).unique (isGreatest_boundary text offset)

/-- To count up to a column is to count down what is left of it. -/
lemma columnOffset_eq (h : '\n' ∉ line) (column offset units : Nat) :
    columnOffset column line offset units = offset + bytesBefore line (column - units) := by
  induction line generalizing offset units with
  | nil => rfl
  | cons c line ih =>
    rw [List.mem_cons, not_or] at h
    rw [columnOffset, bytesBefore]
    split
    next reached => rw [if_pos (.inl (by omega)), Nat.add_zero]
    next short =>
      have further : ¬(column - units = 0 ∨ c = '\n') := by
        rintro (zero | newline)
        · omega
        · exact h.1 newline.symm
      rw [if_neg further, ih h.2, Nat.sub_sub, Nat.add_assoc]

lemma takeWhile_line {below : List Char} (h : '\n' ∉ line) (ends : ∀ c ∈ below.head?, c = '\n') :
    (line ++ below).takeWhile (· != '\n') = line := by
  have inner : ∀ c ∈ line, (c != '\n') = true := by
    intro c member
    rw [bne_iff_ne]
    rintro rfl
    exact h member
  have stop : below.takeWhile (· != '\n') = [] := by
    cases below with
    | nil => rfl
    | cons c below => simp [ends c rfl]
  rw [List.takeWhile_append_of_pos inner, stop, List.append_nil]

end Reading

end Text

namespace LineIndex
open Text

/-- Halving finds the index from which on the entries are larger than the offset. -/
lemma firstAbove_eq {starts : Array Nat} {offset first low high : Nat}
    (upTo : ∀ i < first, starts.getD i 0 ≤ offset) (above : ∀ i, first ≤ i → i < high → offset < starts.getD i 0)
    (lower : low ≤ first) (upper : first ≤ high) : firstAbove starts offset low high = first := by
  -- each step keeps the index between the bounds
  fun_induction firstAbove starts offset low high with
  | case1 low high wide middle small ih =>
    refine ih above ?_ upper
    by_contra early
    exact Nat.not_lt.mpr small (above middle (by omega) (by omega))
  | case2 low high wide middle large ih =>
    have late : first ≤ middle := by
      by_contra early
      exact large (upTo middle (by omega))
    exact ih (fun i from_first before => above i from_first (by omega)) lower late
  | case3 low high narrow => omega

variable {text line : List Char} {n : Nat}

lemma size_starts (text : List Char) : (of text).starts.size = (lines text).length := by
  simp [of, lineStarts_eq]

lemma getElem?_starts (text : List Char) (n : Nat) :
    (of text).starts[n]? = (lines text)[n]?.map fun _ => lineStart text n := by
  by_cases present : n < (lines text).length <;> simp [of, lineStarts_eq, present]

lemma getD_starts (h : (lines text)[n]? = some line) : (of text).starts.getD n 0 = lineStart text n := by
  rw [Array.getD_eq_getD_getElem?, getElem?_starts, h]
  rfl

lemma slice_append (above front below : List Char) :
    (of (above ++ (front ++ below))).slice (bytes above) (bytes above + bytes front) = front := by
  rw [slice, of, Span.slice?_append]
  rfl

/-- Halving finds the line of an offset. -/
lemma firstAbove_starts (text : List Char) (offset : Nat) :
    firstAbove (of text).starts offset 0 (of text).starts.size = (positionAt text offset).line + 1 := by
  obtain ⟨line, onLine⟩ := exists_line_of_offsetAt? (offsetAt?_positionAt_floor text offset)
  have last := (List.getElem?_eq_some_iff.mp onLine).1
  have entry : ∀ i, i < (lines text).length →
      ((of text).starts.getD i 0 ≤ offset ↔ i ≤ (positionAt text offset).line) := by
    intro i present
    have listed := List.getElem?_eq_getElem present
    rw [getD_starts listed, lineStart_le_iff listed]
  rw [size_starts]
  refine firstAbove_eq ?_ ?_ (Nat.zero_le _) last
  · intro i before
    exact (entry i (by omega)).mpr (by omega)
  · intro i behind present
    have := (entry i present).not
    omega

lemma position_of (text : List Char) (offset : Nat) : (of text).position offset = positionAt text offset := by
  have found := offsetAt?_positionAt_floor text offset
  obtain ⟨line, onLine⟩ := exists_line_of_offsetAt? found
  obtain ⟨above, front, below, whole, start, again, place, -⟩ :=
    exists_on_line onLine (positionAt text offset).column
  have floor : bytes (above ++ front) = bytes (atMost text offset) := Option.some.inj (again.symm.trans found)
  rw [floor, ← positionAt_floor] at place
  have before : (of text).slice (lineStart text (positionAt text offset).line) (bytes (atMost text offset)) = front := by
    rw [← start, ← floor, bytes_append, whole, slice_append]
  have same : (of text).text = text := rfl
  simp only [position, same, boundaryUpTo_eq, firstAbove_starts, ← positionAt_floor, Nat.add_sub_cancel,
    getD_starts onLine, before]
  exact place.symm

lemma offset?_of (text : List Char) (p : Position) : (of text).offset? p = offsetAt? text p.line p.column := by
  rw [offset?, getElem?_starts]
  cases onLine : (lines text)[p.line]? with
  | none =>
    rw [(offsetAt?_eq_none_iff _ _).mpr (List.getElem?_eq_none_iff.mp onLine)]
    rfl
  | some line =>
    obtain ⟨above, below, rfl, oneLine, ends, start, -, offsets⟩ := exists_line onLine
    have rest := slice_append above (line ++ below) []
    rw [List.append_nil, ← bytes_append] at rest
    have same : (of (above ++ (line ++ below))).text = above ++ (line ++ below) := rfl
    rw [offsets, ← start]
    simp only [Option.map_some, same, rest, takeWhile_line oneLine ends, columnOffset_eq oneLine, Nat.sub_zero]

end LineIndex

namespace Text

/-- How the offsets and the positions of a text correspond. -/
structure Corresponds (text : List Char) : Prop where
  /-- An offset stands for the last boundary up to it, and its position leads back to that boundary. -/
  position : ∀ offset, ∃ b, IsGreatest {b | isBoundary text b = true ∧ b ≤ min offset (bytes text)} b ∧
    positionAt text offset = positionAt text b ∧
    offsetAt? text (positionAt text offset).line (positionAt text offset).column = some b
  /-- Only behind the last line there are no offsets. -/
  missing : ∀ p : Position, offsetAt? text p.line p.column = none ↔ (lines text).length ≤ p.line
  /-- A position stands for the next column of its line at which a character starts, or for the end of the
  line. -/
  offset : ∀ (p : Position) (line : List Char), (lines text)[p.line]? = some line →
    ∃ offset, offsetAt? text p.line p.column = some offset ∧ isBoundary text offset = true ∧
      lineStart text p.line ≤ offset ∧ offset ≤ lineStart text p.line + bytes line ∧
      (positionAt text offset).line = p.line ∧
      (IsLeast {column ∈ columns line | p.column ≤ column} (positionAt text offset).column ∨
        (∀ column ∈ columns line, column < p.column) ∧ (positionAt text offset).column = width line)
  position_mono : Monotone (positionAt text)
  offset_mono : ∀ p q : Position, p ≤ q → ∀ a b, offsetAt? text p.line p.column = some a →
    offsetAt? text q.line q.column = some b → a ≤ b
  /-- The table of line starts gives these positions and offsets. -/
  table : (∀ offset, (LineIndex.of text).position offset = positionAt text offset) ∧
    ∀ p : Position, (LineIndex.of text).offset? p = offsetAt? text p.line p.column

/-- Offsets and positions of a text correspond. -/
theorem positions_correspond (text : List Char) : Corresponds text := by
  refine ⟨?_, ?_, ?_, positionAt_mono text, fun p q le a b ha hb => offsetAt?_mono le ha hb,
    LineIndex.position_of text, LineIndex.offset?_of text⟩
  · intro offset
    exact ⟨_, isGreatest_boundary text offset, positionAt_floor text offset,
      offsetAt?_positionAt_floor text offset⟩
  · exact fun p => offsetAt?_eq_none_iff p.line p.column
  · intro p line onLine
    obtain ⟨above, front, below, whole, start, offset, place, inLine, least, reached⟩ :=
      exists_on_line onLine p.column
    obtain ⟨rest, rfl⟩ := inLine
    refine ⟨_, offset, isBoundary_iff.mpr ⟨_, below, by simp [whole], rfl⟩, ?_, ?_, by rw [place], ?_⟩
    · rw [← start, bytes_append]
      exact Nat.le_add_right _ _
    · simp only [← start, bytes_append]
      omega
    · rw [place]
      have inLine : front <+: front ++ rest := List.prefix_append front rest
      exact next_column inLine least reached

/-- A column inside a character of two units stands for the character behind it. -/
example : positionAt "a\n=𝄞x".toList 7 = ⟨1, 3⟩ ∧ offsetAt? "a\n=𝄞x".toList 1 2 = some 7 := by decide

end Text

end Keyfile
