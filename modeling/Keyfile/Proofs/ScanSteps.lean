import Keyfile.Proofs.Boundaries
import Keyfile.Proofs.ScannedTokens
import Mathlib.Logic.Relation

/-! A scan as turns of a loop. Each turn reads one lexeme at a position of the text. A value made of blanks only is
empty and leaves the position where it was, but it is waited for no longer, so the turns come to an end; and there
are at most so many nodes as the text has characters, and one more for each equals sign. -/
namespace Keyfile

/-- What is known of a text in the course of reading it: how far it was read, the line so far, and the nodes. -/
structure Reading where
  position : Nat
  line : LineState
  nodes : List Node

/-- What a turn of the loop comes to. -/
inductive Turn where
  /-- The position is not between two characters of the text. -/
  | astray
  /-- All is read. -/
  | finished
  | next (r : Reading)

namespace Reading

def start : Reading := ⟨0, .fresh, []⟩

/-- One turn: the lexeme at the position is read. -/
def turn (text : List Char) (r : Reading) : Turn :=
  match Text.cut? text r.position with
  | none => .astray
  | some (_, []) => .finished
  | some (_, c :: cs) =>
    let first := firstLexeme r.line c cs
    .next ⟨r.position + Text.bytes first.1.chars, first.2, r.nodes ++ layout r.position [first.1]⟩

def Step (text : List Char) (r r' : Reading) : Prop := r.turn text = .next r'

/-- The readings that turns lead to from the start. -/
def Reached (text : List Char) (r : Reading) : Prop := Relation.ReflTransGen (Step text) start r

/-- What is left: bytes to read, and a value that is waited for. -/
def left (text : List Char) (r : Reading) : Nat × Nat :=
  (Text.bytes text - r.position, r.line.afterAssign.toNat)

/-- Less is left: fewer bytes, or as many and a value less. -/
def Less : Nat × Nat → Nat × Nat → Prop := Prod.Lex (· < ·) (· < ·)

end Reading

section Lexemes
variable {s : LineState} {l : Lexeme} {rest : List Char}

lemma role_eq_value {afterAssign : Bool} {c : Char} (h : role afterAssign c = .value) : afterAssign = true := by
  unfold role at h
  split_ifs at h with _ _ _ after
  exact after

lemma Role.ofKind_literal {kind : Kind} (literal : kind ∈ Kind.literals) : Role.ofKind (some kind) = .value := by
  simp only [Kind.literals, List.mem_cons, List.not_mem_nil, or_false] at literal
  rcases literal with rfl | rfl | rfl <;> rfl

/-- What is empty is a text value, and one was waited for. -/
lemma Starts.of_empty (h : Starts s l rest) (empty : l.chars = []) :
    s.afterAssign = true ∧ l.kind? = some .string := by
  obtain ⟨kind, literal, kinded⟩ : ∃ kind ∈ Kind.literals, l.kind? = some kind := by
    by_contra other
    push Not at other
    exact h.nonempty other empty
  obtain ⟨c, cs, -, hr, first⟩ := h.inversion
  rw [kinded, Role.ofKind_literal literal] at hr first
  refine ⟨role_eq_value hr, ?_⟩
  rw [Role.lexeme] at first
  by_cases quote : c = '"'
  · subst quote
    rw [← first] at empty
    cases empty
  · rw [valueLexeme_unquoted quote] at first
    subst first
    rw [show Text.trimEnd ((c :: cs).takeWhile isValueChar) = [] from empty]
    rfl

lemma afterAssign_after {kind? : Option Kind} (h : (s.after kind?).afterAssign = true) :
    kind? = some .assign ∨ s.afterAssign = true := by
  cases kind? with
  | none => exact .inr h
  | some kind => cases kind <;> simp_all [LineState.after, LineState.fresh]

lemma role_of_waiting (c : Char) :
    role true c = .lineBreak ∨ role true c = .gap ∨ role true c = .comment ∨ role true c = .value := by
  simp only [role, if_true]
  split_ifs <;> simp

/-- A value stays waited for over blanks and a comment only. -/
lemma Starts.of_waiting (h : Starts s l rest) (waits : (s.after l.kind?).afterAssign = true) :
    l.kind? = some .assign ∨ s.afterAssign = true ∧ (l.kind? = none ∨ l.kind? = some .comment) := by
  rcases afterAssign_after waits with assign | after
  · exact .inl assign
  · obtain ⟨c, cs, -, hr, -⟩ := h.inversion
    have roles := role_of_waiting c
    rw [← after, hr] at roles
    cases kinded : l.kind? with
    | none => exact .inr ⟨after, .inl rfl⟩
    | some kind =>
      rw [kinded] at roles waits
      cases kind <;> simp_all [Role.ofKind, LineState.after, LineState.fresh]

/-- A node takes a character of the text, or the value that an equals sign waits for. -/
lemma Starts.paid (h : Starts s l rest) {kind : Kind} (kinded : l.kind? = some kind) :
    1 + (s.after l.kind?).afterAssign.toNat ≤
      l.chars.length + (if kind = .assign then 1 else 0) + s.afterAssign.toNat := by
  by_cases empty : l.chars = []
  · obtain ⟨after, string⟩ := h.of_empty empty
    rw [empty, after, string]
    exact Nat.le_add_left _ _
  · have size : 0 < l.chars.length := List.length_pos_iff.mpr empty
    cases waits : (s.after l.kind?).afterAssign with
    | false =>
      rw [Bool.toNat_false]
      omega
    | true =>
      rcases afterAssign_after waits with assign | after
      · obtain rfl : kind = .assign := Option.some.inj (kinded.symm.trans assign)
        rw [Bool.toNat_true, if_pos rfl]
        omega
      · rw [after, Bool.toNat_true]
        omega

end Lexemes

section Turns
variable {text front rest : List Char} {r r' : Reading}

lemma layout_cons (offset : Nat) (l : Lexeme) (ls : List Lexeme) :
    layout offset (l :: ls) = layout offset [l] ++ layout (offset + Text.bytes l.chars) ls := by
  obtain ⟨kind?, chars⟩ := l
  cases kind? <;> rfl

lemma layout_gap (offset : Nat) (chars : List Char) : layout offset [⟨none, chars⟩] = [] := rfl

lemma layout_node (offset : Nat) (kind : Kind) (chars : List Char) :
    layout offset [⟨some kind, chars⟩] = [⟨kind, ⟨offset, offset + Text.bytes chars⟩, []⟩] := rfl

/-- An empty node is a text value right behind an equals sign. -/
def EmptyOnlyAssigned (nodes : List Node) : Prop :=
  ∀ before n after, nodes = before ++ n :: after → n.span.start = n.span.stop →
    n.kind = .string ∧ before.getLast?.map (·.kind) = some .assign

/-- What is true of a reading that has come behind `front` and has `rest` before it. -/
structure Reading.Inside (front rest : List Char) (r : Reading) : Prop where
  place : r.position = Text.bytes front
  /-- The nodes so far and those of the rest are the nodes of the text. -/
  content : (scan (String.ofList (front ++ rest))).content = r.nodes ++ layout r.position (lexemes r.line rest)
  /-- Each node took a character, or the value of an equals sign; one that is waited for is not yet taken. -/
  count : r.nodes.length + r.line.afterAssign.toNat ≤
    front.length + r.nodes.countP (·.kind = .assign)
  /-- A value is waited for right behind an equals sign, or in vain. -/
  waits : r.line.afterAssign = true →
    r.nodes.getLast?.map (·.kind) = some .assign ∨ ∀ c ∈ rest.head?, c = '\n'
  empty : EmptyOnlyAssigned r.nodes

lemma Reading.inside_start (text : List Char) : Reading.start.Inside [] text := by
  refine ⟨rfl, ?_, Nat.le_refl _, fun waits => absurd waits (by decide), ?_⟩
  · rw [List.nil_append, scan, String.toList_ofList]
    rfl
  · intro before n after split
    simp [Reading.start] at split

/-- A reading between two characters goes on with the lexeme that starts there, or is at the end. -/
lemma Reading.turn_cases (place : r.position = Text.bytes front) (rest : List Char) :
    rest = [] ∧ r.turn (front ++ rest) = .finished ∨
      ∃ l rest', rest = l.chars ++ rest' ∧ Starts r.line l rest' ∧
        r.turn (front ++ rest) = .next ⟨Text.bytes (front ++ l.chars), r.line.after l.kind?,
          r.nodes ++ layout r.position [l]⟩ := by
  rw [Reading.turn, place, Text.cut?_append]
  cases rest with
  | nil => exact .inl ⟨rfl, rfl⟩
  | cons c cs =>
    obtain ⟨rest', text⟩ := lexeme_isPrefix (role r.line.afterAssign c) r.line.inContainer c cs
    refine .inr ⟨_, rest', text.symm, ⟨c, cs, text, rfl⟩, ?_⟩
    simp only [firstLexeme_eq, Text.bytes_append]

/-- Each turn leaves less. -/
lemma Reading.less_of_turn {l : Lexeme} (inside : r.position = Text.bytes front) (starts : Starts r.line l rest)
    (nodes : List Node) :
    Less (left (front ++ (l.chars ++ rest)) ⟨Text.bytes (front ++ l.chars), r.line.after l.kind?, nodes⟩)
      (left (front ++ (l.chars ++ rest)) r) := by
  simp only [Less, left, inside, Text.bytes_append, Prod.lex_def]
  by_cases empty : l.chars = []
  · obtain ⟨after, string⟩ := starts.of_empty empty
    rw [empty, after, string]
    exact .inr ⟨rfl, Nat.zero_lt_one⟩
  · left
    obtain ⟨c, cs, chars⟩ := List.exists_cons_of_ne_nil empty
    have size := c.utf8Size_pos
    rw [chars, Text.bytes_cons]
    omega

lemma EmptyOnlyAssigned.concat {nodes : List Node} (h : EmptyOnlyAssigned nodes) {n : Node}
    (last : n.span.start = n.span.stop → n.kind = .string ∧ nodes.getLast?.map (·.kind) = some .assign) :
    EmptyOnlyAssigned (nodes ++ [n]) := by
  intro before m after split
  rcases List.eq_nil_or_concat after with rfl | ⟨after, k, rfl⟩
  · obtain ⟨rfl, same⟩ := List.append_inj' split rfl
    obtain rfl := List.singleton_inj.mp same
    exact last
  · rw [List.concat_eq_append, ← List.cons_append, ← List.append_assoc] at split
    exact h before m after (List.append_inj' split rfl).1

/-- What is true of a reading is true after a turn. -/
lemma Reading.Inside.step {l : Lexeme} {rest' : List Char} (h : r.Inside front (l.chars ++ rest'))
    (starts : Starts r.line l rest') :
    Reading.Inside (front ++ l.chars) rest' ⟨Text.bytes (front ++ l.chars), r.line.after l.kind?,
      r.nodes ++ layout r.position [l]⟩ := by
  have behind : r.position + Text.bytes l.chars = Text.bytes (front ++ l.chars) := by
    rw [h.place, Text.bytes_append]
  -- a value that is waited for in vain has the line break before it
  have inVain : (∀ c ∈ (l.chars ++ rest').head?, c = '\n') → l = lineBreakLexeme := by
    intro newline
    obtain ⟨c, cs, chars, first⟩ := starts
    rw [chars] at newline
    obtain rfl : c = '\n' := newline c rfl
    exact first.symm
  refine ⟨rfl, ?_, ?_, ?_, ?_⟩
  · rw [List.append_assoc, h.content, lexemes_of_starts starts, layout_cons, behind, List.append_assoc]
  · have count := h.count
    obtain ⟨kind?, chars⟩ := l
    cases kind? with
    | none =>
      simp only [layout_gap, List.append_nil, List.length_append, LineState.after]
      omega
    | some kind =>
      have paid := starts.paid rfl
      have assigns : ([⟨kind, ⟨r.position, r.position + Text.bytes chars⟩, []⟩] : List Node).countP
          (·.kind = .assign) = if kind = .assign then 1 else 0 := by simp [List.countP_cons]
      simp only [layout_node, List.countP_append, List.length_append, List.length_singleton] at paid ⊢
      rw [assigns]
      omega
  · intro waits
    rcases starts.of_waiting waits with assign | ⟨after, skip | comment⟩
    · obtain ⟨kind?, chars⟩ := l
      obtain rfl : kind? = some .assign := assign
      simp [layout_node]
    · rcases h.waits after with last | newline
      · obtain ⟨kind?, chars⟩ := l
        obtain rfl : kind? = none := skip
        rw [layout_gap, List.append_nil]
        exact .inl last
      · rw [inVain newline] at skip
        cases skip
    · exact .inr (starts.of_comment comment)
  · obtain ⟨kind?, chars⟩ := l
    cases kind? with
    | none =>
      rw [layout_gap, List.append_nil]
      exact h.empty
    | some kind =>
      apply h.empty.concat
      intro point
      have nothing : chars = [] := Text.eq_nil_of_bytes (by simp only at point; omega)
      obtain ⟨after, string⟩ := starts.of_empty nothing
      rcases h.waits after with last | newline
      · exact ⟨Option.some.inj string, last⟩
      · rw [inVain newline] at string
        cases string

/-- Every reading that turns lead to is between two characters of the text. -/
lemma Reading.Reached.inside (h : Reached text r) : ∃ front rest, text = front ++ rest ∧ r.Inside front rest := by
  induction h with
  | refl => exact ⟨[], text, rfl, Reading.inside_start text⟩
  | tail _ step ih =>
    obtain ⟨front, rest, rfl, inside⟩ := ih
    rcases Reading.turn_cases inside.place rest with ⟨-, finished⟩ | ⟨l, rest', rfl, starts, next⟩
    · rw [Reading.Step, finished] at step
      cases step
    · obtain rfl := Turn.next.inj (next.symm.trans step)
      exact ⟨front ++ l.chars, rest', by rw [List.append_assoc], inside.step starts⟩

/-- Since each turn leaves less, there is a last one. -/
lemma Reading.Reached.finishes (h : Reached text r) : ∃ last, Reached text last ∧ last.turn text = .finished := by
  have order : WellFounded Reading.Less := Prod.lex Nat.lt_wfRel Nat.lt_wfRel |>.wf
  induction hn : r.left text using order.induction generalizing r with
  | _ n ih =>
    obtain ⟨front, rest, rfl, inside⟩ := h.inside
    rcases Reading.turn_cases inside.place rest with ⟨-, finished⟩ | ⟨l, rest', rfl, starts, next⟩
    · exact ⟨r, h, finished⟩
    · exact ih _ (hn ▸ Reading.less_of_turn inside.place starts _) (h.tail next) rfl

/-- Reading comes to an end. Each turn starts between two characters of the text and leaves fewer bytes, or as many
and no value to wait for; the last one leaves the nodes of the scan. There are at most so many of them as the text
has characters and one more for each equals sign, since only a text value right behind one can be empty. -/
theorem scan_terminates (text : String) :
    (∀ r, Reading.Reached text.toList r → Text.isBoundary text.toList r.position = true ∧
      r.turn text.toList ≠ .astray ∧
      ∀ r', r.turn text.toList = .next r' → Reading.Less (r'.left text.toList) (r.left text.toList)) ∧
    (∃ last, Reading.Reached text.toList last ∧ last.turn text.toList = .finished ∧
      last.nodes = (scan text).content) ∧
    (scan text).content.length ≤ text.length + (scan text).content.countP (·.kind = .assign) ∧
    EmptyOnlyAssigned (scan text).content := by
  obtain ⟨last, reached, finished⟩ := Reading.Reached.finishes (.refl : Reading.Reached text.toList .start)
  obtain ⟨front, rest, whole, inside⟩ := reached.inside
  -- nothing is left before the last turn
  obtain rfl : rest = [] := by
    rcases Reading.turn_cases inside.place rest with ⟨nothing, -⟩ | ⟨_, _, -, -, next⟩
    · exact nothing
    · rw [whole, next] at finished
      cases finished
  have content : (scan text).content = last.nodes := by
    have content := inside.content
    rwa [← whole, String.ofList_toList, lexemes, layout, List.append_nil] at content
  refine ⟨?_, ⟨last, reached, finished, content.symm⟩, ?_, content ▸ inside.empty⟩
  · intro r reached
    obtain ⟨front, rest, whole, inside⟩ := reached.inside
    rw [whole]
    refine ⟨Text.isBoundary_iff.mpr ⟨front, rest, rfl, inside.place.symm⟩, ?_⟩
    rcases Reading.turn_cases inside.place rest with ⟨-, finished⟩ | ⟨l, rest', rfl, starts, next⟩
    · rw [finished]
      exact ⟨Turn.noConfusion, fun r' same => absurd same Turn.noConfusion⟩
    · rw [next]
      refine ⟨Turn.noConfusion, ?_⟩
      rintro r' ⟨⟩
      exact Reading.less_of_turn inside.place starts _
  · have count := inside.count
    have size : text.length = front.length := by
      rw [← String.length_toList, whole, List.append_nil]
    rw [content, size]
    omega

/-- As many nodes as there can be: a no-break space behind an equals sign is an empty value, then stray text. -/
example : (scan "=\u00a0").content.length = "=\u00a0".length + 1 := by
  rw [scan_eq_within]
  decide +kernel

end Turns

end Keyfile
