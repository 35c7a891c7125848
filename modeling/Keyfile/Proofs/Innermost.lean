import Keyfile.Proofs.Arena.Preorder
import Keyfile.Proofs.Lossless
import Mathlib.Logic.Relation

/-! The node at which a descent ends. In every tree it is the one node that is reached from the root through
first covering children and has no covering child itself. In a scanned text, whose nodes stand side by side,
it is the one node around the offset, and the root where a blank was skipped and behind the text. -/
namespace Keyfile

open Adjacency (Token)
open Relation (ReflTransGen)

/-- A node, or one around it. -/
def Cursor.Encloses (outer c : Cursor) : Prop := ReflTransGen (fun x p => x.parent? = some p) c outer

/-- A node that a descent from another passes or ends at. -/
def Cursor.Descends (covers : Span → Bool) : Cursor → Cursor → Prop :=
  ReflTransGen fun p x => p.children.find? (covers ·.span) = some x

/-- All that a descent from the root promises of the node at which it ends. -/
structure Document.IsInnermost (d : Document) (covers : Span → Bool) (c : Cursor) : Prop where
  root : d.rootCursor.Encloses c
  around : ∀ x, x.Encloses c → x ∈ d.cursors ∧ (x = d.rootCursor ∨
    covers x.span ∧ ∃ p, x.parent? = some p ∧ p.children.find? (covers ·.span) = some x)
  inside : ∀ x ∈ c.children, covers x.span = false

/-! ### Descents -/

namespace Cursor

variable {covers : Span → Bool} {r c x : Cursor}

theorem descends_seek (covers : Span → Bool) (c : Cursor) :
    c.Descends covers (c.seek covers) ∧ (c.seek covers).children.find? (covers ·.span) = none := by
  induction size : c.node.size using Nat.strongRecOn generalizing c with
  | _ n ih =>
    rw [seek_eq]
    cases found : c.children.find? (covers ·.span) with
    | none => exact ⟨.refl, found⟩
    | some child =>
      have smaller : child.node.size < n := size ▸ size_lt_of_mem_children (List.mem_of_find?_eq_some found)
      obtain ⟨deeper, last⟩ := ih _ smaller child rfl
      exact ⟨.head found deeper, last⟩

/-- The nodes around the end of a descent are those that it passed and those around its start. The
induction is on the descent from its end; each step is undone by the step to the node around. -/
theorem Descends.around (h : r.Descends covers c) (outer : x.Encloses c) :
    x.Encloses r ∨ covers x.span ∧ ∃ p, x.parent? = some p ∧ p.children.find? (covers ·.span) = some x := by
  induction h with
  | refl => exact .inl outer
  | @tail p c passed found ih =>
    have parent := mem_children_iff.1 (List.mem_of_find?_eq_some found)
    rcases ReflTransGen.cases_head outer with rfl | ⟨q, around, outer⟩
    · exact .inr ⟨by simpa using List.find?_some found, p, parent, found⟩
    · obtain rfl := Option.some.inj (parent.symm.trans around)
      exact ih outer

theorem Descends.encloses (h : r.Descends covers c) : r.Encloses c := by
  induction h with
  | refl => exact .refl
  | tail _ found ih => exact .head (mem_children_iff.1 (List.mem_of_find?_eq_some found)) ih

end Cursor

namespace Document

variable {d : Document} {covers : Span → Bool} {c x : Cursor}

theorem eq_root_of_encloses (h : x.Encloses d.rootCursor) : x = d.rootCursor := by
  rcases ReflTransGen.cases_head h with same | ⟨p, parent, -⟩
  · exact same.symm
  · cases parent

theorem encloses_mem (listed : c ∈ d.cursors) (h : x.Encloses c) : x ∈ d.cursors := by
  induction h with
  | refl => exact listed
  | tail _ parent ih => exact parent_mem ih parent

theorem isInnermost_seek (d : Document) (covers : Span → Bool) :
    d.IsInnermost covers (d.rootCursor.seek covers) := by
  obtain ⟨descent, last⟩ := d.rootCursor.descends_seek covers
  refine ⟨descent.encloses, fun x outer => ⟨?_, ?_⟩, ?_⟩
  · exact encloses_mem (seek_spec covers d.rootCursor_mem).1 outer
  · exact (descent.around outer).imp_left eq_root_of_encloses
  · simpa using last

/-- A descent from any node around an innermost one ends there. -/
theorem IsInnermost.seek_eq (h : d.IsInnermost covers c) (outer : x.Encloses c) : x.seek covers = c := by
  induction outer with
  | refl =>
    have last : c.children.find? (covers ·.span) = none := by simpa using h.inside
    rw [Cursor.seek_eq, last]
    rfl
  | @tail x p outer parent ih =>
    rcases (h.around x outer).2 with rfl | ⟨-, q, around, found⟩
    · cases parent
    · obtain rfl := Option.some.inj (around.symm.trans parent)
      rw [Cursor.seek_eq, found]
      exact ih

theorem isInnermost_iff : d.IsInnermost covers c ↔ c = d.rootCursor.seek covers := by
  constructor
  · intro h
    exact (h.seek_eq h.root).symm
  · rintro rfl
    exact d.isInnermost_seek covers

/-- A node ends right behind the byte that it covers. -/
theorem innermost_before_eq_after (d : Document) (offset : Nat) :
    d.innermost (offset + 1) .before = d.innermost offset .after := by
  have same : (fun s : Span => s.covers (offset + 1) .before) = (·.covers offset .after) := by
    funext s
    simp only [Span.covers, Nat.lt_succ_iff, Nat.succ_le_iff]
  rw [innermost, innermost, same]

end Document

/-! ### Scanned texts -/

section Scanned

variable {text : String} {offset : Nat}

/-- At an offset stands a blank that a scan skips. -/
def SkippedAt (text : List Char) (offset : Nat) : Prop :=
  ∃ before c after, lexemes .fresh text = before ++ ⟨none, [c]⟩ :: after ∧
    (c = ' ' ∨ c = '\t' ∨ c = '\r') ∧ Text.bytes (charsOf before) = offset

theorem exists_lexeme_at {ls : List Lexeme} (h : offset < Text.bytes (charsOf ls)) :
    ∃ before l after, ls = before ++ l :: after ∧ Text.bytes (charsOf before) ≤ offset ∧
      offset < Text.bytes (charsOf before) + Text.bytes l.chars := by
  induction ls generalizing offset with
  | nil => simp at h
  | cons l ls ih =>
    rw [charsOf_cons, Text.bytes_append] at h
    by_cases here : offset < Text.bytes l.chars
    · exact ⟨[], l, ls, rfl, by simp, by simpa using here⟩
    · obtain ⟨before, m, after, rfl, low, high⟩ := @ih (offset - Text.bytes l.chars) (by omega)
      refine ⟨l :: before, m, after, rfl, ?_, ?_⟩ <;> rw [charsOf_cons, Text.bytes_append] <;> omega

/-- An offset is in a token, at a skipped blank or behind the text. -/
theorem exists_covering_iff (text : List Char) (offset : Nat) :
    (∃ t ∈ tokens 0 (lexemes .fresh text), t.span.covers offset .after) ↔
      ¬ (SkippedAt text offset ∨ Text.bytes text ≤ offset) := by
  have whole : charsOf (lexemes .fresh text) = text := charsOf_lexemes _ _
  simp only [Span.covers, Bool.and_eq_true, decide_eq_true_eq]
  constructor
  · rintro ⟨t, listed, low, high⟩ (⟨before, c, after, split, gap, rfl⟩ | behind)
    · have size : 0 < Text.bytes [c] := by simpa using c.utf8Size_pos
      rw [split, tokens_append, tokens_gap, List.mem_append] at listed
      rcases listed with earlier | later
      · have := (tokens_bounds earlier).2.2
        omega
      · have := (tokens_bounds later).1
        omega
    · have := (tokens_bounds listed).2.2
      rw [whole] at this
      omega
  · intro h
    rw [not_or, Nat.not_le] at h
    obtain ⟨before, ⟨kind?, chars⟩, after, split, low, high⟩ := exists_lexeme_at (whole.symm ▸ h.2)
    cases kind? with
    | none =>
      have skipped : ⟨none, chars⟩ ∈ lexemes .fresh text := by simp [split]
      obtain ⟨c, same, gap⟩ := eq_gap_of_skipped skipped rfl
      cases same
      have blank : c = ' ' ∨ c = '\t' ∨ c = '\r' := by simpa [isGap, or_assoc] using gap
      have size : Text.bytes [c] = 1 := by rcases blank with rfl | rfl | rfl <;> rfl
      simp only [size] at high
      exact absurd ⟨before, c, after, split, blank, by omega⟩ h.1
    | some kind =>
      rw [split, tokens_append, tokens_kind]
      exact ⟨_, List.mem_append_right _ List.mem_cons_self, by simpa using low, by simpa using high⟩

theorem map_node_level (above : List Frame) (before ns : List Node) :
    (Cursor.level above before ns).map Cursor.node = ns := by
  induction ns generalizing before with
  | nil => rfl
  | cons n ns ih => rw [Cursor.level, List.map_cons, ih]

theorem node_mem_content {c : Cursor} (h : c ∈ (scan text).rootCursor.children) :
    c.node ∈ (scan text).content := by
  have nodes := List.mem_map_of_mem (f := Cursor.node) h
  rwa [Cursor.children, map_node_level] at nodes

theorem seek_top (covers : Span → Bool) {c : Cursor} (h : c ∈ (scan text).rootCursor.children) :
    c.seek covers = c := by
  have leaf : c.children = [] := by
    rw [Cursor.children, children_layout 0 _ _ (node_mem_content h)]
    rfl
  rw [Cursor.seek_eq, leaf]
  rfl

theorem innermost_scan_eq (text : String) (offset : Nat) (bias : Bias) :
    (scan text).innermost offset bias =
      ((scan text).rootCursor.children.find? (·.span.covers offset bias)).getD (scan text).rootCursor := by
  have descent := Cursor.seek_eq (·.covers offset bias) (scan text).rootCursor
  refine Eq.trans descent ?_
  cases found : (scan text).rootCursor.children.find? (·.span.covers offset bias) with
  | none => rfl
  | some c => exact seek_top _ (List.mem_of_find?_eq_some found)

theorem map_span_children (text : String) :
    (scan text).rootCursor.children.map Cursor.span
      = (tokens 0 (lexemes .fresh text.toList)).map Token.span := by
  have nodes : (scan text).rootCursor.children.map Cursor.node
      = (tokens 0 (lexemes .fresh text.toList)).map Token.node :=
    (map_node_level _ _ _).trans (content_scan text)
  have spans := congrArg (List.map Node.span) nodes
  rwa [List.map_map, List.map_map] at spans

theorem span_children_pairwise (text : String) :
    (scan text).rootCursor.children.Pairwise fun c x => c.span.stop ≤ x.span.start := by
  have ordered : ((tokens 0 (lexemes .fresh text.toList)).map Token.span).Pairwise
      fun a b => a.stop ≤ b.start := List.pairwise_map.2 (tokens_pairwise 0 _)
  rw [← map_span_children] at ordered
  exact List.pairwise_map.1 ordered

/-- The nodes of a scanned text do not overlap, so at most one of them covers an offset. -/
theorem covering_child_iff (c : Cursor) :
    c ∈ (scan text).rootCursor.children ∧ c.span.start ≤ offset ∧ offset < c.span.stop ↔
      c = (scan text).innermost offset .after ∧ c ≠ (scan text).rootCursor := by
  have inner : ∀ x ∈ (scan text).rootCursor.children, x ≠ (scan text).rootCursor := by
    rintro _ child rfl
    cases Cursor.mem_children_iff.1 child
  have covers : c.span.start ≤ offset ∧ offset < c.span.stop ↔ c.span.covers offset .after := by
    simp [Span.covers]
  rw [covers, innermost_scan_eq]
  cases found : (scan text).rootCursor.children.find? (·.span.covers offset .after) with
  | none =>
    constructor
    · rintro ⟨child, hit⟩
      exact absurd hit (List.find?_eq_none.1 found c child)
    · rintro ⟨root, other⟩
      exact absurd root other
  | some x =>
    obtain ⟨hit, front, back, split, missed⟩ := List.find?_eq_some_iff_append.1 found
    constructor
    · rintro ⟨child, also⟩
      refine ⟨?_, inner c child⟩
      rw [split, List.mem_append, List.mem_cons] at child
      rcases child with earlier | rfl | later
      · simpa [also] using missed c earlier
      · rfl
      · have ordered := span_children_pairwise text
        rw [split, List.pairwise_append, List.pairwise_cons] at ordered
        have apart := ordered.2.1.1 c later
        simp only [Span.covers, Bool.and_eq_true, decide_eq_true_eq] at hit also
        omega
    · rintro ⟨rfl, -⟩
      exact ⟨List.mem_of_find?_eq_some found, hit⟩

theorem innermost_scan_eq_root_iff (text : String) (offset : Nat) :
    (scan text).innermost offset .after = (scan text).rootCursor ↔
      SkippedAt text.toList offset ∨ Text.bytes text.toList ≤ offset := by
  rw [← not_iff_not, ← exists_covering_iff]
  constructor
  · intro inner
    obtain ⟨child, low, high⟩ := (covering_child_iff _).2 ⟨rfl, inner⟩
    have listed := List.mem_map_of_mem (f := Cursor.span) child
    rw [map_span_children] at listed
    obtain ⟨t, listed, same⟩ := List.mem_map.1 listed
    exact ⟨t, listed, by simp [same, Span.covers, low, high]⟩
  · rintro ⟨t, listed, covers⟩
    have child := List.mem_map_of_mem (f := Token.span) listed
    rw [← map_span_children] at child
    obtain ⟨c, child, same⟩ := List.mem_map.1 child
    rw [← same] at covers
    simp only [Span.covers, Bool.and_eq_true, decide_eq_true_eq] at covers
    obtain ⟨rfl, inner⟩ := (covering_child_iff c).1 ⟨child, covers⟩
    exact inner

end Scanned

/-- In a tree that any steps build a descent along the links ends, and it ends at the only node of which
`IsInnermost` holds. Looking before an offset is looking after the one before it. In a scanned text the
descent ends at the one node around the offset, and at the root exactly at skipped blanks and behind the
text. -/
theorem innermost_is_only_end (text : String) (steps : List BuildStep) (offset : Nat) (bias : Bias) :
    let d := Document.build text steps
    let s := scan text
    (∃ a, Arena.build text steps = .ok a ∧
      a.innermost offset bias = .ok (d.innermost offset bias).position) ∧
    (∀ c, d.IsInnermost (·.covers offset bias) c ↔ c = d.innermost offset bias) ∧
    d.innermost (offset + 1) .before = d.innermost offset .after ∧
    (∀ c, c ∈ s.rootCursor.children ∧ c.span.start ≤ offset ∧ offset < c.span.stop ↔
      c = s.innermost offset .after ∧ c ≠ s.rootCursor) ∧
    (s.innermost offset .after = s.rootCursor ↔
      SkippedAt text.toList offset ∨ Text.bytes text.toList ≤ offset) := by
  intro d s
  exact ⟨⟨d.flat, Arena.build_eq text steps, d.innermost_flat offset bias⟩, fun c => Document.isInnermost_iff,
    d.innermost_before_eq_after offset, covering_child_iff, innermost_scan_eq_root_iff text offset⟩

end Keyfile
