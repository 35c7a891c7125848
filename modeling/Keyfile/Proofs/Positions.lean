import Keyfile.Editor.Position
import Keyfile.Proofs.Boundaries
import Keyfile.Proofs.Paths
import Mathlib.Data.Prod.Lex
import Mathlib.Order.Bounds.Basic

/-! Offsets and positions name the same places of a text. An offset goes to the character it lies in, and a
column to the next character of its line; on the boundaries of characters the two ways undo each other. -/
namespace Keyfile

/-- Positions stand in the order of the text, by line and then by column. -/
instance : Preorder Position := Preorder.lift fun p => toLex (p.line, p.column)

lemma Position.le_iff {p q : Position} :
    p ≤ q ↔ p.line < q.line ∨ p.line = q.line ∧ p.column ≤ q.column :=
  Prod.Lex.toLex_le_toLex

namespace Text

@[simp] theorem width_nil : width [] = 0 := rfl
@[simp] theorem width_cons (c : Char) (cs : List Char) : width (c :: cs) = units c + width cs := rfl
@[simp] theorem width_append (a b : List Char) : width (a ++ b) = width a + width b := by
  induction a with
  | nil => simp
  | cons c a ih => rw [List.cons_append, width_cons, width_cons, ih, Nat.add_assoc]

lemma units_pos (c : Char) : 0 < units c := by
  unfold units
  split <;> decide

lemma utf8Size_lineBreak : Char.utf8Size '\n' = 1 := rfl

/-- The lines of a text, without the breaks between them. -/
def lines (text : List Char) : List (List Char) := pieces '\n' text

/-- The offset at which a line starts. -/
def lineStart (text : List Char) (n : Nat) : Nat :=
  ((lines text).take n).foldr (fun line later => bytes line + 1 + later) 0

/-- The columns of a line at which a character starts or the line ends. -/
def columns (line : List Char) : Set Nat := {column | ∃ front, front <+: line ∧ width front = column}

/-- The position behind a text. -/
def endPosition (front : List Char) : Position := front.foldl advance ⟨0, 0⟩

section Floor
variable {text front back : List Char} {n : Nat}

lemma atMost_isPrefix (text : List Char) (n : Nat) : atMost text n <+: text := by
  induction text generalizing n with
  | nil => exact List.nil_prefix
  | cons c cs ih =>
    rw [atMost]
    split
    · exact List.cons_prefix_cons.mpr ⟨rfl, ih _⟩
    · exact List.nil_prefix

lemma bytes_atMost_le (text : List Char) (n : Nat) : bytes (atMost text n) ≤ n := by
  induction text generalizing n with
  | nil => exact Nat.zero_le n
  | cons c cs ih =>
    rw [atMost]
    split
    next fits =>
      have := ih (n - c.utf8Size)
      rw [bytes_cons]
      omega
    next => exact Nat.zero_le n

/-- No longer start of the text has as few bytes. -/
lemma isPrefix_atMost (h : front <+: text) (fits : bytes front ≤ n) : front <+: atMost text n := by
  induction front generalizing text n with
  | nil => exact List.nil_prefix
  | cons c front ih =>
    cases text with
    | nil => simp at h
    | cons x text =>
      obtain ⟨rfl, start⟩ := List.cons_prefix_cons.mp h
      rw [bytes_cons] at fits
      rw [atMost, if_pos (by omega)]
      exact List.cons_prefix_cons.mpr ⟨rfl, ih start (by omega)⟩

lemma atMost_append (front back : List Char) : atMost (front ++ back) (bytes front) = front := by
  have start : front <+: front ++ back := List.prefix_append front back
  obtain ⟨more, whole⟩ := isPrefix_atMost start (Nat.le_refl (bytes front))
  have small := bytes_atMost_le (front ++ back) (bytes front)
  rw [← whole, bytes_append] at small
  obtain rfl : more = [] := eq_nil_of_bytes (by omega)
  rw [← whole, List.append_nil]

lemma positionAt_append (front back : List Char) : positionAt (front ++ back) (bytes front) = endPosition front := by
  rw [positionAt, atMost_append]
  rfl

/-- The last boundary up to an offset is where the characters end that lie before it. -/
lemma isGreatest_boundary (text : List Char) (offset : Nat) :
    IsGreatest {b | isBoundary text b = true ∧ b ≤ min offset (bytes text)} (bytes (atMost text offset)) := by
  obtain ⟨back, whole⟩ := atMost_isPrefix text offset
  have short := bytes_atMost_le text offset
  constructor
  · refine ⟨isBoundary_iff.mpr ⟨_, back, whole.symm, rfl⟩, ?_⟩
    have size := congrArg bytes whole
    rw [bytes_append] at size
    omega
  · rintro b ⟨boundary, low⟩
    obtain ⟨front, rest, rfl, rfl⟩ := isBoundary_iff.mp boundary
    have start : front <+: front ++ rest := List.prefix_append front rest
    obtain ⟨more, longer⟩ := isPrefix_atMost start (low.trans (min_le_left _ _))
    rw [← longer, bytes_append]
    exact Nat.le_add_right _ _

lemma positionAt_floor (text : List Char) (offset : Nat) :
    positionAt text offset = positionAt text (bytes (atMost text offset)) := by
  obtain ⟨back, whole⟩ := atMost_isPrefix text offset
  have same := positionAt_append (atMost text offset) back
  rw [whole] at same
  rw [same]
  rfl

end Floor

section Order

lemma le_foldl_advance (cs : List Char) (p : Position) : p ≤ cs.foldl advance p := by
  induction cs generalizing p with
  | nil => exact le_refl p
  | cons c cs ih =>
    refine le_trans ?_ (ih (advance p c))
    rw [Position.le_iff, advance]
    split
    · exact .inl (Nat.lt_succ_self _)
    · exact .inr ⟨rfl, Nat.le_add_right _ _⟩

lemma positionAt_mono (text : List Char) : Monotone (positionAt text) := by
  intro a b le
  obtain ⟨more, longer⟩ :=
    isPrefix_atMost (atMost_isPrefix text a) ((bytes_atMost_le text a).trans le)
  rw [positionAt, positionAt, ← longer, List.foldl_append]
  exact le_foldl_advance more _

end Order

section Lines
variable {line : List Char}

/-- A text is one line, or a line with a break and a text behind it. -/
lemma lines_induction {motive : List Char → Prop} (last : ∀ line, '\n' ∉ line → motive line)
    (more : ∀ line rest, '\n' ∉ line → motive rest → motive (line ++ '\n' :: rest)) (text : List Char) :
    motive text := by
  induction size : text.length using Nat.strong_induction_on generalizing text with
  | _ n ih =>
    by_cases broken : '\n' ∈ text
    · obtain ⟨line, rest, rfl, none⟩ := List.eq_append_cons_of_mem broken
      refine more line rest none (ih rest.length ?_ rest rfl)
      rw [← size, List.length_append, List.length_cons]
      omega
    · exact last text broken

lemma lines_of_oneLine (h : '\n' ∉ line) : lines line = [line] := pieces_of_notMem h

lemma lines_append (h : '\n' ∉ line) (rest : List Char) : lines (line ++ '\n' :: rest) = line :: lines rest :=
  pieces_append_cons h rest

lemma lineStart_succ (h : '\n' ∉ line) (rest : List Char) (n : Nat) :
    lineStart (line ++ '\n' :: rest) (n + 1) = bytes line + 1 + lineStart rest n := by
  rw [lineStart, lines_append h]
  rfl

lemma foldl_advance_of_oneLine (h : '\n' ∉ line) (p : Position) :
    line.foldl advance p = ⟨p.line, p.column + width line⟩ := by
  induction line generalizing p with
  | nil => rfl
  | cons c line ih =>
    rw [List.mem_cons, not_or] at h
    rw [List.foldl_cons, ih h.2, advance, if_neg (Ne.symm h.1), width_cons, Nat.add_assoc]

/-- One line further down, everything is on the next line. -/
lemma foldl_advance_down (cs : List Char) (p : Position) :
    cs.foldl advance ⟨p.line + 1, p.column⟩ =
      ⟨(cs.foldl advance p).line + 1, (cs.foldl advance p).column⟩ := by
  induction cs generalizing p with
  | nil => rfl
  | cons c cs ih =>
    have step : advance ⟨p.line + 1, p.column⟩ c = ⟨(advance p c).line + 1, (advance p c).column⟩ := by
      unfold advance
      split <;> rfl
    rw [List.foldl_cons, step, ih, List.foldl_cons]

lemma endPosition_append (h : '\n' ∉ line) (front : List Char) :
    endPosition (line ++ '\n' :: front) = ⟨(endPosition front).line + 1, (endPosition front).column⟩ := by
  rw [endPosition, List.foldl_append, foldl_advance_of_oneLine h]
  exact foldl_advance_down front ⟨0, 0⟩

lemma offsetAt?_zero (text : List Char) (column : Nat) :
    offsetAt? text 0 column = some (bytesBefore text column) := by
  cases text <;> rfl

lemma offsetAt?_of_oneLine (h : '\n' ∉ line) (n column : Nat) : offsetAt? line (n + 1) column = none := by
  induction line with
  | nil => rfl
  | cons c line ih =>
    rw [List.mem_cons, not_or] at h
    rw [offsetAt?, if_neg (Ne.symm h.1), ih h.2]
    rfl

lemma offsetAt?_succ (h : '\n' ∉ line) (rest : List Char) (n column : Nat) :
    offsetAt? (line ++ '\n' :: rest) (n + 1) column = (offsetAt? rest n column).map (bytes line + 1 + ·) := by
  induction line with
  | nil =>
    rw [List.nil_append, offsetAt?, if_pos rfl]
    simp [utf8Size_lineBreak]
  | cons c line ih =>
    rw [List.mem_cons, not_or] at h
    rw [List.cons_append, offsetAt?, if_neg (Ne.symm h.1), ih h.2, Option.map_map]
    simp [Function.comp_def, Nat.add_assoc]

lemma bytesBefore_append (h : '\n' ∉ line) (rest : List Char) (column : Nat) :
    bytesBefore (line ++ '\n' :: rest) column = bytesBefore line column := by
  induction line generalizing column with
  | nil => simp [bytesBefore]
  | cons c line ih =>
    rw [List.mem_cons, not_or] at h
    rw [List.cons_append, bytesBefore, bytesBefore, ih h.2]

/-- The column behind some characters of a line leads back to where they end. -/
lemma bytesBefore_width (h : '\n' ∉ line) (rest : List Char) :
    bytesBefore (line ++ rest) (width line) = bytes line := by
  induction line with
  | nil => cases rest <;> simp [bytesBefore]
  | cons c line ih =>
    rw [List.mem_cons, not_or] at h
    have := units_pos c
    have other : ¬(width (c :: line) = 0 ∨ c = '\n') := by
      rw [width_cons]
      rintro (zero | newline)
      · omega
      · exact h.1 newline.symm
    rw [List.cons_append, bytesBefore, if_neg other, width_cons, Nat.add_sub_cancel_left, ih h.2, bytes_cons]

/-- What stands before a column is the shortest start of the line that reaches the column, or all of the line
where none does. -/
lemma exists_before_column (h : '\n' ∉ line) (column : Nat) :
    ∃ front, front <+: line ∧ bytesBefore line column = bytes front ∧
      (∀ other, other <+: line → column ≤ width other → front <+: other) ∧
      (column ≤ width front ∨ front = line) := by
  induction line generalizing column with
  | nil => exact ⟨[], List.nil_prefix, rfl, fun _ _ _ => List.nil_prefix, .inr rfl⟩
  | cons c line ih =>
    rw [List.mem_cons, not_or] at h
    rcases Nat.eq_zero_or_pos column with rfl | pos
    · exact ⟨[], List.nil_prefix, by simp [bytesBefore], fun _ _ _ => List.nil_prefix, .inl (Nat.zero_le _)⟩
    · obtain ⟨front, start, size, least, reached⟩ := ih h.2 (column - units c)
      have further : ¬(column = 0 ∨ c = '\n') := by
        rintro (zero | newline)
        · omega
        · exact h.1 newline.symm
      refine ⟨c :: front, List.cons_prefix_cons.mpr ⟨rfl, start⟩, ?_, ?_, ?_⟩
      · rw [bytesBefore, if_neg further, size, bytes_cons]
      · intro other below wide
        cases other with
        | nil =>
          rw [width_nil] at wide
          omega
        | cons x other =>
          obtain ⟨rfl, inner⟩ := List.cons_prefix_cons.mp below
          rw [width_cons] at wide
          exact List.cons_prefix_cons.mpr ⟨rfl, least other inner (by omega)⟩
      · rcases reached with wide | rfl
        · rw [width_cons]
          exact .inl (by omega)
        · exact .inr rfl

/-- The width of the shortest start that reaches a column is the next column of the line. -/
lemma next_column {front : List Char} {column : Nat} (start : front <+: line)
    (least : ∀ other, other <+: line → column ≤ width other → front <+: other)
    (reached : column ≤ width front ∨ front = line) :
    IsLeast {c ∈ columns line | column ≤ c} (width front) ∨
      (∀ c ∈ columns line, c < column) ∧ width front = width line := by
  by_cases wide : column ≤ width front
  · refine .inl ⟨⟨⟨front, start, rfl⟩, wide⟩, ?_⟩
    rintro _ ⟨⟨other, inner, rfl⟩, far⟩
    obtain ⟨more, rfl⟩ := least other inner far
    rw [width_append]
    exact Nat.le_add_right _ _
  · obtain rfl := reached.resolve_left wide
    refine .inr ⟨?_, rfl⟩
    rintro _ ⟨other, ⟨more, rfl⟩, rfl⟩
    rw [width_append] at wide
    omega

end Lines

section Correspondence
variable {text : List Char}

/-- The position behind a start of the text leads back to where it ends. -/
lemma offsetAt?_endPosition (front back : List Char) :
    offsetAt? (front ++ back) (endPosition front).line (endPosition front).column = some (bytes front) := by
  induction front using lines_induction with
  | last line oneLine =>
    rw [endPosition, foldl_advance_of_oneLine oneLine, offsetAt?_zero, Nat.zero_add, bytesBefore_width oneLine]
  | more line front oneLine ih =>
    rw [endPosition_append oneLine, List.append_assoc, List.cons_append, offsetAt?_succ oneLine, ih]
    simp [Nat.add_assoc, utf8Size_lineBreak]

/-- A boundary is found again by its position. -/
lemma offsetAt?_positionAt {b : Nat} (h : isBoundary text b = true) :
    offsetAt? text (positionAt text b).line (positionAt text b).column = some b := by
  obtain ⟨front, back, rfl, rfl⟩ := isBoundary_iff.mp h
  rw [positionAt_append, offsetAt?_endPosition]

/-- Other offsets lead to the last boundary up to them. -/
lemma offsetAt?_positionAt_floor (text : List Char) (offset : Nat) :
    offsetAt? text (positionAt text offset).line (positionAt text offset).column =
      some (bytes (atMost text offset)) := by
  rw [positionAt_floor]
  exact offsetAt?_positionAt (isGreatest_boundary text offset).1.1

/-- A line in its place, and the offsets of its columns. -/
lemma exists_line {n : Nat} {line : List Char} (h : (lines text)[n]? = some line) :
    ∃ above below, text = above ++ (line ++ below) ∧ '\n' ∉ line ∧ (∀ c ∈ below.head?, c = '\n') ∧
      bytes above = lineStart text n ∧ endPosition above = ⟨n, 0⟩ ∧
      ∀ column, offsetAt? text n column = some (bytes above + bytesBefore line column) := by
  induction text using lines_induction generalizing n with
  | last only oneLine =>
    rw [lines_of_oneLine oneLine] at h
    cases n with
    | succ n => simp at h
    | zero =>
      obtain rfl : only = line := by simpa using h
      exact ⟨[], [], by simp, oneLine, by simp, rfl, rfl, fun column => by simp [offsetAt?_zero]⟩
  | more first rest oneLine ih =>
    rw [lines_append oneLine] at h
    cases n with
    | zero =>
      obtain rfl : first = line := by simpa using h
      refine ⟨[], '\n' :: rest, rfl, oneLine, by simp, rfl, rfl, ?_⟩
      intro column
      simp [offsetAt?_zero, bytesBefore_append oneLine]
    | succ n =>
      obtain ⟨above, below, rfl, inner, ends, start, position, offsets⟩ := ih (by simpa using h)
      refine ⟨first ++ '\n' :: above, below, by simp, inner, ends, ?_, ?_, ?_⟩
      · rw [lineStart_succ oneLine, ← start]
        simp [Nat.add_assoc, utf8Size_lineBreak]
      · rw [endPosition_append oneLine, position]
      · intro column
        rw [offsetAt?_succ oneLine, offsets]
        simp [Nat.add_assoc, utf8Size_lineBreak]

lemma offsetAt?_eq_none_iff (n column : Nat) : offsetAt? text n column = none ↔ (lines text).length ≤ n := by
  constructor
  · intro missing
    by_contra present
    obtain ⟨_, -, -, -, -, -, -, offsets⟩ := exists_line (List.getElem?_eq_getElem (by omega : n < (lines text).length))
    rw [offsets] at missing
    cases missing
  · intro past
    induction text using lines_induction generalizing n with
    | last line oneLine =>
      rw [lines_of_oneLine oneLine, List.length_singleton] at past
      obtain ⟨n, rfl⟩ : ∃ m, n = m + 1 := ⟨n - 1, by omega⟩
      exact offsetAt?_of_oneLine oneLine n column
    | more line rest oneLine ih =>
      rw [lines_append oneLine, List.length_cons] at past
      obtain ⟨n, rfl⟩ : ∃ m, n = m + 1 := ⟨n - 1, by omega⟩
      rw [offsetAt?_succ oneLine, ih n (by omega)]
      rfl

/-- A position on a line has the offset of the next character of the line, or of its end. -/
lemma exists_on_line {n : Nat} {line : List Char} (h : (lines text)[n]? = some line) (column : Nat) :
    ∃ above front below, text = above ++ (front ++ below) ∧ bytes above = lineStart text n ∧
      offsetAt? text n column = some (bytes (above ++ front)) ∧
      positionAt text (bytes (above ++ front)) = ⟨n, width front⟩ ∧ front <+: line ∧
      (∀ other, other <+: line → column ≤ width other → front <+: other) ∧
      (column ≤ width front ∨ front = line) := by
  obtain ⟨above, below, rfl, oneLine, -, start, position, offsets⟩ := exists_line h
  obtain ⟨front, ⟨rest, rfl⟩, size, least, reached⟩ := exists_before_column oneLine column
  refine ⟨above, front, rest ++ below, by simp, start, ?_, ?_, List.prefix_append front rest, least, reached⟩
  · rw [offsets, size, bytes_append]
  · have inner : '\n' ∉ front := fun member => oneLine (List.mem_append_left _ member)
    rw [show above ++ (front ++ rest ++ below) = above ++ front ++ (rest ++ below) by simp,
      positionAt_append, endPosition, List.foldl_append, ← endPosition, position,
      foldl_advance_of_oneLine inner, Nat.zero_add]

lemma exists_line_of_offsetAt? {n column offset : Nat} (h : offsetAt? text n column = some offset) :
    ∃ line, (lines text)[n]? = some line := by
  have present : n < (lines text).length := by
    by_contra past
    rw [(offsetAt?_eq_none_iff n column).mpr (by omega)] at h
    cases h
  exact ⟨_, List.getElem?_eq_getElem present⟩

lemma offsetAt?_le {n column offset : Nat} (h : offsetAt? text n column = some offset) : offset ≤ bytes text := by
  obtain ⟨line, onLine⟩ := exists_line_of_offsetAt? h
  obtain ⟨above, front, below, rfl, -, found, -⟩ := exists_on_line onLine column
  obtain rfl : bytes (above ++ front) = offset := Option.some.inj (found.symm.trans h)
  rw [← List.append_assoc, bytes_append (above ++ front)]
  exact Nat.le_add_right _ _

lemma offsetAt?_mono {p q : Position} (le : p ≤ q) {a b : Nat} (ha : offsetAt? text p.line p.column = some a)
    (hb : offsetAt? text q.line q.column = some b) : a ≤ b := by
  obtain ⟨line, onLine⟩ := exists_line_of_offsetAt? ha
  obtain ⟨line', onLine'⟩ := exists_line_of_offsetAt? hb
  obtain ⟨above, front, _, -, start, offset, place, below, least, -⟩ := exists_on_line onLine p.column
  obtain ⟨above', front', _, -, start', offset', place', below', -, reached⟩ := exists_on_line onLine' q.column
  obtain rfl : bytes (above ++ front) = a := Option.some.inj (offset.symm.trans ha)
  obtain rfl : bytes (above' ++ front') = b := Option.some.inj (offset'.symm.trans hb)
  rcases Position.le_iff.mp le with lower | ⟨same, column⟩
  · -- on a later line there are no earlier offsets
    by_contra later
    have order := positionAt_mono text (Nat.le_of_not_le later)
    rw [place, place', Position.le_iff] at order
    simp only at order
    omega
  · rw [← same] at onLine' start'
    obtain rfl : line = line' := Option.some.inj (onLine.symm.trans onLine')
    have shorter : front <+: front' := by
      rcases reached with wide | rfl
      · exact least front' below' (column.trans wide)
      · exact below
    obtain ⟨more, rfl⟩ := shorter
    simp only [bytes_append]
    omega

end Correspondence

end Text

end Keyfile
