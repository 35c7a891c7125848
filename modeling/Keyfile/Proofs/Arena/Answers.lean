import Keyfile.Completion.Resolve
import Keyfile.Proofs.Arena.Walking
import Keyfile.Proofs.Boundaries
import Keyfile.Proofs.Paths
import Mathlib.Data.List.TakeWhile

/-! Hover and completion on a flat tree, with words for numbers: every sum has to fit into a word, and every
part that is cut from a text has to be there. On the layout of a document they give what they give on the
document, as long as the length of the text and the offset are words. -/
namespace Keyfile

/-- Words are the numbers below this one. -/
def wordLimit : Nat := 0x10000000000000000

namespace Checked

variable {α : Type}

def add (a b : Nat) : Checked Nat := if a + b < wordLimit then .ok (a + b) else .error .overflow

def sub (a b : Nat) : Checked Nat := if b ≤ a then .ok (a - b) else .error .underflow

/-- The text up to a byte. -/
def upTo (text : List Char) (n : Nat) : Checked (List Char) :=
  match Text.cut? text n with
  | none => .error .slice
  | some parts => .ok parts.1

/-- The text from a byte on. -/
def onward (text : List Char) (n : Nat) : Checked (List Char) :=
  match Text.cut? text n with
  | none => .error .slice
  | some parts => .ok parts.2

/-- The elements from a position on. -/
def drop (xs : List α) (n : Nat) : Checked (List α) :=
  if n ≤ xs.length then .ok (xs.drop n) else .error .slice

theorem add_eq {a b : Nat} (h : a + b < wordLimit) : add a b = .ok (a + b) := if_pos h

theorem sub_eq {a b : Nat} (h : b ≤ a) : sub a b = .ok (a - b) := if_pos h

theorem upTo_append (front back : List Char) : upTo (front ++ back) (Text.bytes front) = .ok front := by
  rw [upTo, Text.cut?_append]

theorem onward_append (front back : List Char) :
    onward (front ++ back) (Text.bytes front) = .ok back := by
  rw [onward, Text.cut?_append]

@[simp] theorem drop_one_cons (x : α) (xs : List α) : drop (x :: xs) 1 = .ok xs := rfl

end Checked

/-! ### Names in a schema -/

section Lookup

variable {ι : Type} [HasWildcards ι]

/-- The entry at the end of a path. -/
def resolveChecked (roots : List (Entry ι)) (parts : List String) : Checked (Option (Resolved ι)) :=
  match parts.head? with
  | none => pure none
  | some first =>
    match startAt? roots first with
    | none => pure none
    | some root => do
      let rest ← Checked.drop parts 1
      pure ((root.follow? rest).map (⟨·, parts.length⟩))

/-- The entries on a path, as far as it leads. -/
def trailChecked (roots : List (Entry ι)) (parts : List String) : Checked (List (Entry ι)) :=
  match parts.head? with
  | none => pure []
  | some first =>
    match startAt? roots first with
    | none => pure []
    | some root => do
      let rest ← Checked.drop parts 1
      pure (root.trail rest)

theorem resolveChecked_eq (roots : List (Entry ι)) (parts : List String) :
    resolveChecked roots parts = .ok (resolveSegments? roots parts) := by
  cases parts with
  | nil => rfl
  | cons part parts =>
    simp only [resolveChecked, resolveSegments?, List.head?_cons]
    cases startAt? roots part <;> rfl

theorem trailChecked_eq (roots : List (Entry ι)) (parts : List String) :
    trailChecked roots parts = .ok (trailSegments .longest roots parts) := by
  cases parts with
  | nil => rfl
  | cons part parts =>
    simp only [trailChecked, trailSegments, List.head?_cons]
    cases startAt? roots part <;> simp

end Lookup

/-! ### Hover -/

/-- Where the segment of a name ends that its `cursor`-th byte is in; `tail` is the name from there on. -/
def segmentStop (name : List Char) (cursor : Nat) (tail : List Char) : Checked Nat :=
  if tail.contains '.' then Checked.add cursor (Text.bytes (tail.takeWhile (· != '.')))
  else pure (Text.bytes name)

/-- The segment under a pointer ends inside the name. -/
theorem segmentStop_of_cut {name front back : List Char} {cursor : Nat}
    (cut : Text.cut? name cursor = some (front, back)) (short : Text.bytes name < wordLimit) :
    ∃ part rest, part = front ++ back.takeWhile (· != '.') ∧ name = part ++ rest ∧
      segmentStop name cursor back = .ok (Text.bytes part) := by
  obtain ⟨rfl, rfl⟩ := Text.eq_append_of_cut? cut
  have split : back = back.takeWhile (· != '.') ++ back.dropWhile (· != '.') :=
    List.takeWhile_append_dropWhile.symm
  refine ⟨_, back.dropWhile (· != '.'), rfl, by rw [List.append_assoc, ← split], ?_⟩
  rw [segmentStop]
  split
  next =>
    have length := congrArg Text.bytes split
    rw [Text.bytes_append] at length short
    rw [Checked.add_eq (by omega), Text.bytes_append]
  next plain =>
    have all : back.takeWhile (· != '.') = back := by
      apply List.takeWhile_eq_self_iff.2
      intro c listed
      have other : c ≠ '.' := fun dot => plain (by simpa [dot] using listed)
      simpa using other
    rw [all, Checked.pure_eq]

/-- The titles along a name of a certain kind. -/
def titlesChecked (schema : Schema) (kind : Kind) (name : String) : Checked (List String) :=
  match kind with
  | .containerName => return (← trailChecked schema.containers (segments name)).map (·.title)
  | .keyName => return (← trailChecked schema.keys (segments name)).map (·.title)
  | _ => pure []

theorem titlesChecked_eq (schema : Schema) (kind : Kind) (name : String) :
    titlesChecked schema kind name = .ok (schema.titlesOf kind name) := by
  cases kind <;> simp [titlesChecked, trailChecked_eq, Schema.titlesOf, titles, trail]

/-- An empty name has no titles. -/
theorem titlesOf_empty (schema : Schema) (kind : Kind) : schema.titlesOf kind "" = [] := by
  cases kind <;> rfl

namespace Arena

/-- Hover on a node with the pointer at an offset. -/
def hoverOn (a : Arena) (schema : Schema) (i : Nat) (offset : Nat) : Checked (Option HoverInfo) := do
  let name ← a.textOf i
  let s ← a.slot i
  if offset < s.span.start then pure none
  else
    let cursor := offset - s.span.start
    match Text.cut? name.toList cursor with
    | none => pure none
    | some parts => do
      let stop ← segmentStop name.toList cursor parts.2
      let path ← Checked.upTo name.toList stop
      let found ← titlesChecked schema s.kind (String.ofList path)
      if found.isEmpty then pure none
      else do
        let last ← Checked.add s.span.start stop
        pure (some ⟨s.span.start, last, found⟩)

/-- Hover at an offset. -/
def hoverAt (a : Arena) (schema : Schema) (offset : Nat) : Checked (Option HoverInfo) := do
  let i ← a.innermost offset .after
  let s ← a.slot i
  if s.kind.isName then a.hoverOn schema i offset
  else do
    let j ← a.innermost offset .before
    a.hoverOn schema j offset

end Arena

namespace Document

variable {d : Document} {c : Cursor}

/-- A node with a text is a part of the text. -/
theorem stop_le_size (h : (d.textOf c).toList ≠ []) :
    c.span.start + Text.bytes (d.textOf c).toList ≤ d.size := by
  rw [textOf, slice, Span.slice?] at h ⊢
  cases parts : c.span.parts? d.text.toList with
  | none => simp [parts] at h
  | some found =>
    obtain ⟨front, middle, back⟩ := found
    obtain ⟨whole, span⟩ := Span.eq_append_of_parts? parts
    simp [span, size, whole]

theorem bytes_textOf_le (c : Cursor) : Text.bytes (d.textOf c).toList ≤ d.size := by
  by_cases h : (d.textOf c).toList = []
  · simp [h]
  · have := stop_le_size h
    omega

theorem hoverOn_flat (short : d.size < wordLimit) (schema : Schema) (h : c ∈ d.cursors) (offset : Nat) :
    d.flat.hoverOn schema c.position offset = .ok (Keyfile.hoverOn schema d c offset) := by
  rw [Arena.hoverOn, textOf_flat h, slot_flat h, hoverOn_eq_titlesOf]
  simp only [Checked.ok_bind, Cursor.span_slot, Cursor.kind_slot]
  by_cases left : offset < c.span.start
  · simp [left]
  simp only [left, if_false, throughSegment?]
  cases cut : Text.cut? (d.textOf c).toList (offset - c.span.start) with
  | none => rfl
  | some parts =>
    obtain ⟨front, back⟩ := parts
    have fits := d.bytes_textOf_le c
    obtain ⟨part, rest, segment, whole, stop⟩ := segmentStop_of_cut cut (Nat.lt_of_le_of_lt fits short)
    have path := Checked.upTo_append part rest
    rw [← whole] at path
    simp only [stop, Checked.ok_bind, path, titlesChecked_eq, Option.map_some, Option.bind_some, ← segment]
    cases titles : schema.titlesOf c.kind (String.ofList part) with
    | nil => rfl
    | cons title more =>
      -- a name with titles is not empty, so the node is a part of the text
      have named : (d.textOf c).toList ≠ [] := by
        intro empty
        obtain ⟨rfl, -⟩ := List.append_eq_nil_iff.1 (whole.symm.trans empty)
        rw [String.ofList_nil, titlesOf_empty] at titles
        cases titles
      have sum : c.span.start + Text.bytes part < wordLimit := by
        have inside := stop_le_size named
        rw [whole, Text.bytes_append] at inside
        omega
      simp [Checked.add_eq sum]

theorem hoverAt_flat (d : Document) (short : d.size < wordLimit) (schema : Schema) (offset : Nat) :
    d.flat.hoverAt schema offset = .ok (Keyfile.hoverAt schema d offset) := by
  rw [Arena.hoverAt, innermost_flat, Checked.ok_bind, slot_flat (d.innermost_mem offset .after),
    Checked.ok_bind, Keyfile.hoverAt, Cursor.kind_slot, innermost_flat, Checked.ok_bind,
    hoverOn_flat short schema (d.innermost_mem offset .after),
    hoverOn_flat short schema (d.innermost_mem offset .before)]
  cases (d.innermost offset .after).kind.isName <;> rfl

-- a root whose first child is not there lays out no document
example :
    (Arena.mk "" [⟨.document, ⟨0, 0⟩, none, none, none, some 1, some 1⟩]).hoverAt .empty 0 = .error .index := rfl

end Document

/-! ### Completion -/

/-- A dotted name taken apart before its last segment; nothing when its first segment is empty. -/
def splitLast? (name : String) : Checked (Option (List String × String)) := do
  let parts := segments name
  match parts.getLast? with
  | none => pure none
  | some last => do
    let first ← Checked.get parts 0
    pure (if first = "" then none else some (parts.dropLast, last))

/-- Where the last segment of a name starts. -/
def segmentStart (span : Span) (name last : String) : Checked Nat := do
  let sum ← Checked.add span.start (Text.bytes name.toList)
  Checked.sub sum (Text.bytes last.toList)

/-- Completion of a value of a key that starts at an offset. -/
def valueChecked (c : Completer) (start : Nat) (key typed : String) : Checked Plan := do
  match ← resolveChecked c.schema.keys (segments key) with
  | none => pure (.settled none)
  | some found =>
    match found.entry.info.rule.bind (·.suggestions? c.settings.rangeLimit) with
    | some suggestions =>
      let values := suggestions.values.filter fun v => !suggestions.isNarrowed || c.accepts typed v
      pure (.settled (some ⟨start, none,
        values.map (⟨·, none, Completer.valueOptionKind suggestions.source⟩)⟩))
    | none => pure (.ask ⟨.value, key, typed⟩ start none .text)

namespace Arena

/-- Completion on a container name. -/
def container (a : Arena) (c : Completer) (i : Nat) : Checked Plan := do
  let name ← a.textOf i
  let s ← a.slot i
  match ← splitLast? name with
  | none => pure (.settled none)
  | some (parents, last) =>
    if parents.isEmpty then
      pure (.settled (some ⟨s.span.start, some s.span.stop,
        c.offer last (fun _ => .constant) c.schema.containers⟩))
    else do
      match ← resolveChecked c.schema.containers parents with
      | none => pure (.settled none)
      | some found => do
        let start ← segmentStart s.span name last
        match found.entry.children with
        | some children =>
          pure (.settled (some ⟨start, some s.span.stop, c.offer last (fun _ => .constant) children⟩))
        | none =>
          pure (.ask ⟨.container, joinStrings '.' parents, last⟩ start (some s.span.stop) .constant)

/-- Completion on a key. -/
def key (a : Arena) (c : Completer) (i : Nat) : Checked Plan := do
  let name ← a.textOf i
  let s ← a.slot i
  match ← splitLast? name with
  | none => pure (.settled none)
  | some (parents, last) =>
    if parents.isEmpty then
      pure (.settled (some ⟨s.span.start, some s.span.stop, c.offer last (fun _ => .type) c.schema.keys⟩))
    else do
      match ← resolveChecked c.schema.keys parents with
      | none => pure (.settled none)
      | some found => do
        let start ← segmentStart s.span name last
        let path := joinStrings '.' parents
        let askKeys := Plan.ask ⟨.key, path, last⟩ start (some s.span.stop) .type
        match found.entry.children with
        | none => pure askKeys
        | some children =>
          let options := c.offer last Completer.keyKind children
          if options.isEmpty then
            match children.find? (·.isWildcard) with
            | none => pure askKeys
            | some wildcard =>
              pure (.ask ⟨.wildcard, path ++ "." ++ wildcard.value, last⟩ start (some s.span.stop) .type)
          else pure (.settled (some ⟨start, some s.span.stop, options⟩))

/-- Completion on an equals sign. -/
def afterAssign (a : Arena) (c : Completer) (i : Nat) : Checked Plan := do
  match ← a.prevOfKind? i .keyName with
  | none => pure (.settled none)
  | some key => do
    let s ← a.slot i
    let typed ←
      match s.next with
      | none => pure ""
      | some next => a.textOf next
    let start ← Checked.add s.span.start 1
    let name ← a.textOf key
    valueChecked c start name (trimmed typed)

/-- Completion in the blanks after an equals sign. -/
def afterGap (a : Arena) (c : Completer) (assign offset : Nat) : Checked Plan := do
  match ← a.prevOfKind? assign .keyName with
  | none => pure (.settled none)
  | some key => do
    let name ← a.textOf key
    valueChecked c offset name ""

/-- Completion on a node that stands for a value. -/
def onValue (a : Arena) (c : Completer) (i : Nat) : Checked Plan := do
  match ← a.keyOfValue? i with
  | none => pure (.settled none)
  | some key => do
    let s ← a.slot i
    let name ← a.textOf key
    let typed ← a.textOf i
    valueChecked c s.span.start name (trimmed typed)

/-- Completion on a node. -/
def onNode (a : Arena) (c : Completer) (i : Nat) : Checked Plan := do
  let s ← a.slot i
  match s.kind with
  | .containerName => a.container c i
  | .keyName => a.key c i
  | .assign => a.afterAssign c i
  | _ => a.onValue c i

/-- The equals sign that only spaces and tabs separate from an offset. -/
def assignBefore? (a : Arena) (offset : Nat) : Checked (Option Nat) := do
  let root ← a.slot 0
  match ← a.lastUpTo offset a.slots.length root.first none with
  | none => pure none
  | some last => do
    let s ← a.slot last
    if s.kind = .assign then
      match Span.slice? ⟨s.span.stop, offset⟩ a.text.toList with
      | none => pure none
      | some gap => pure (if gap.all fun ch => ch == ' ' || ch == '\t' then some last else none)
    else pure none

/-- Completion at a cursor. -/
def atOffset (a : Arena) (c : Completer) (offset : Nat) : Checked Plan := do
  let i ← a.innermost offset .before
  let s ← a.slot i
  if s.kind = .document then
    match ← a.assignBefore? offset with
    | some assign => a.afterGap c assign offset
    | none => a.onNode c i
  else a.onNode c i

end Arena

theorem valueChecked_eq (c : Completer) (start : Nat) (key typed : String) :
    valueChecked c start key typed = .ok (c.value start key typed) := by
  rw [valueChecked, resolveChecked_eq, Checked.ok_bind, Completer.value, resolve?]
  cases resolveSegments? c.schema.keys (segments key) with
  | none => rfl
  | some found =>
    cases offered : found.entry.info.rule.bind (·.suggestions? c.settings.rangeLimit) <;> simp [offered]

/-- A name whose first segment is not empty is not empty, and its last segment is not longer than it. -/
theorem splitLast?_spec (name : String) :
    (splitLast? name = .ok none ∧ (segments name).head? = some "") ∨
      ∃ parents last, splitLast? name = .ok (some (parents, last)) ∧ segments name = parents ++ [last] ∧
        (parents ++ [last]).head? ≠ some "" ∧ name.toList ≠ [] ∧
        Text.bytes last.toList ≤ Text.bytes name.toList := by
  obtain ⟨front, last, parents, whole, split, -⟩ := exists_last_segment name
  obtain ⟨first, more, cons⟩ := List.exists_cons_of_ne_nil (segments_ne_nil name)
  have get : Checked.get (segments name) 0 = .ok first := by
    rw [cons]
    rfl
  have parted : splitLast? name = .ok (if first = "" then none else some (parents, last)) := by
    rw [splitLast?, get, split]
    simp
  by_cases empty : first = ""
  · left
    rw [parted, if_pos empty, cons, empty]
    exact ⟨rfl, rfl⟩
  · right
    refine ⟨parents, last, by rw [parted, if_neg empty], split, ?_, ?_, ?_⟩
    · rw [← split, cons]
      simpa using empty
    · intro nothing
      rw [segments, splitString, nothing] at cons
      cases cons
      exact empty rfl
    · rw [whole, String.toList_append, Text.bytes_append]
      omega

namespace Document

variable {d : Document} {x : Cursor}

theorem segmentStart_eq (short : d.size < wordLimit) (named : (d.textOf x).toList ≠ []) {last : String}
    (part : Text.bytes last.toList ≤ Text.bytes (d.textOf x).toList) :
    segmentStart x.span (d.textOf x) last = .ok (Completer.segmentStart x.span (d.textOf x) last) := by
  have inside := stop_le_size named
  rw [segmentStart, Checked.add_eq (by omega), Checked.ok_bind, Checked.sub_eq (by omega),
    Completer.segmentStart]

theorem container_flat (short : d.size < wordLimit) (h : x ∈ d.cursors) (c : Completer) :
    d.flat.container c x.position = .ok (c.container (d.textOf x) x.span) := by
  rw [Arena.container, textOf_flat h, slot_flat h, Completer.container]
  obtain ⟨nothing, empty⟩ | ⟨parents, last, parted, split, filled, named, part⟩ :=
    splitLast?_spec (d.textOf x)
  · simp [nothing, empty]
  simp only [Checked.ok_bind, parted, filled, if_false, split, List.dropLast_concat, List.getLastD_concat,
    resolveChecked_eq, segmentStart_eq short named part, Cursor.span_slot]
  cases parents.isEmpty with
  | true => rfl
  | false =>
    cases resolveSegments? c.schema.containers parents with
    | none => rfl
    | some found =>
      simp only [Bool.false_eq_true, if_false]
      cases found.entry.children <;> rfl

theorem key_flat (short : d.size < wordLimit) (h : x ∈ d.cursors) (c : Completer) :
    d.flat.key c x.position = .ok (c.key (d.textOf x) x.span) := by
  rw [Arena.key, textOf_flat h, slot_flat h, Completer.key]
  obtain ⟨nothing, empty⟩ | ⟨parents, last, parted, split, filled, named, part⟩ :=
    splitLast?_spec (d.textOf x)
  · simp [nothing, empty]
  simp only [Checked.ok_bind, parted, filled, if_false, split, List.dropLast_concat, List.getLastD_concat,
    resolveChecked_eq, segmentStart_eq short named part, Cursor.span_slot]
  cases parents.isEmpty with
  | true => rfl
  | false =>
    cases resolveSegments? c.schema.keys parents with
    | none => rfl
    | some found =>
      simp only [Bool.false_eq_true, if_false]
      cases found.entry.children with
      | none => rfl
      | some children =>
        dsimp only
        cases (c.offer last Completer.keyKind children).isEmpty with
        | false => rfl
        | true => cases children.find? (·.isWildcard) <;> rfl

theorem afterAssign_flat (h : x ∈ d.cursors) {offset : Nat} (word : offset < wordLimit)
    (before : x.span.start < offset) (c : Completer) :
    d.flat.afterAssign c x.position = .ok ({ c with document := d }.afterAssign x) := by
  rw [Arena.afterAssign, prevOfKind?_flat h, Checked.ok_bind, Completer.afterAssign]
  cases found : x.prevOfKind? .keyName with
  | none => rfl
  | some key =>
    have sum : x.span.start + 1 < wordLimit := by omega
    simp only [Option.map_some, slot_flat h, Checked.ok_bind, Cursor.next_slot, Cursor.span_slot,
      Checked.add_eq sum, textOf_flat (prevOfKind?_mem h found), valueChecked_eq]
    cases next : x.next? with
    | none => rfl
    | some n =>
      simp [textOf_flat (next_mem h next)]
      rfl

theorem afterGap_flat (h : x ∈ d.cursors) (offset : Nat) (c : Completer) :
    d.flat.afterGap c x.position offset = .ok ({ c with document := d }.afterGap x offset) := by
  rw [Arena.afterGap, prevOfKind?_flat h, Checked.ok_bind, Completer.afterGap]
  cases found : x.prevOfKind? .keyName with
  | none => rfl
  | some key =>
    simp only [Option.map_some, textOf_flat (prevOfKind?_mem h found), Checked.ok_bind, valueChecked_eq]
    rfl

theorem onValue_flat (h : x ∈ d.cursors) (c : Completer) :
    d.flat.onValue c x.position = .ok ({ c with document := d }.onValue x) := by
  rw [Arena.onValue, keyOfValue?_flat h, Checked.ok_bind, Completer.onValue]
  cases found : x.keyOfValue? with
  | none => rfl
  | some key =>
    simp only [Option.map_some, slot_flat h, textOf_flat h, textOf_flat (keyOfValue?_mem h found),
      Checked.ok_bind, valueChecked_eq, Cursor.span_slot]
    rfl

theorem onNode_flat (short : d.size < wordLimit) (h : x ∈ d.cursors) {offset : Nat}
    (word : offset < wordLimit) (before : x.kind = .assign → x.span.start < offset) (c : Completer) :
    d.flat.onNode c x.position = .ok ({ c with document := d }.onNode x) := by
  rw [Arena.onNode, slot_flat h, Checked.ok_bind, Completer.onNode, Cursor.kind_slot]
  cases kind : x.kind with
  | containerName => exact container_flat short h c
  | keyName => exact key_flat short h c
  | assign => exact afterAssign_flat h word (before kind) c
  | _ => exact onValue_flat h c

theorem lastUpTo_mem {offset : Nat} {last : Cursor}
    (h : (d.rootCursor.children.takeWhile (·.span.stop ≤ offset)).getLast? = some last) :
    last ∈ d.cursors :=
  children_subset d.rootCursor_mem ((List.takeWhile_subset _) (List.mem_of_getLast? h))

theorem assignBefore?_flat (d : Document) (offset : Nat) :
    d.flat.assignBefore? offset = .ok ((Completer.assignBefore? d offset).map Cursor.position) := by
  have root : d.flat.slot 0 = .ok d.rootCursor.slot := slot_flat d.rootCursor_mem
  have scanned := lastUpTo_flat offset _ _ _ _ (length_children_le d.rootCursor_mem)
    (children_subset d.rootCursor_mem) none
  rw [Arena.assignBefore?, root, Checked.ok_bind, Cursor.first_slot, Cursor.firstChild?, Cursor.children,
    scanned, Checked.ok_bind, Completer.assignBefore?, Option.or_none, Cursor.children]
  cases found : ((Cursor.level (d.rootCursor.frame :: d.rootCursor.above) []
      d.rootCursor.node.children).takeWhile (·.span.stop ≤ offset)).getLast? with
  | none => rfl
  | some last =>
    simp only [Option.map_some, slot_flat (lastUpTo_mem found), Checked.ok_bind, Cursor.kind_slot,
      Cursor.span_slot]
    by_cases assign : last.kind = .assign
    · simp only [assign, if_true]
      have text : d.flat.text = d.text := rfl
      rw [text]
      cases Span.slice? ⟨last.span.stop, offset⟩ d.text.toList with
      | none => rfl
      | some gap =>
        dsimp only
        cases gap.all fun ch => ch == ' ' || ch == '\t' <;> rfl
    · simp [assign]

theorem assignBefore?_mem {offset : Nat} (h : Completer.assignBefore? d offset = some x) : x ∈ d.cursors := by
  rw [Completer.assignBefore?] at h
  cases found : (d.rootCursor.children.takeWhile (·.span.stop ≤ offset)).getLast? with
  | none => simp [found] at h
  | some last =>
    have same : last = x := by
      simp only [found] at h
      split at h
      next =>
        split at h
        · cases h
        · split at h
          · exact Option.some.inj h
          · cases h
      next => cases h
    exact same ▸ lastUpTo_mem found

/-- Completion on the layout of a document is completion on the document. -/
theorem atOffset_flat (d : Document) (short : d.size < wordLimit) {offset : Nat} (word : offset < wordLimit)
    (c : Completer) : d.flat.atOffset c offset = .ok ({ c with document := d }.atOffset offset) := by
  have member := d.innermost_mem offset .before
  -- an equals sign is not the root, so it starts before the offset
  have before : (d.innermost offset .before).kind = .assign →
      (d.innermost offset .before).span.start < offset := by
    intro assign
    have around := d.covers_innermost offset .before (by rw [assign]; decide)
    simp only [Span.covers, Bool.and_eq_true, decide_eq_true_eq] at around
    exact around.1
  have node := onNode_flat short member word before c
  rw [Arena.atOffset, innermost_flat, Checked.ok_bind, slot_flat member, Checked.ok_bind, Cursor.kind_slot,
    assignBefore?_flat, Checked.ok_bind, node, Completer.atOffset]
  dsimp only
  by_cases outside : (d.innermost offset .before).kind = .document
  · simp only [outside, if_true]
    cases found : Completer.assignBefore? d offset with
    | none => rfl
    | some assign => exact afterGap_flat (assignBefore?_mem found) offset c
  · simp [outside]

-- past the words there is a fault: the value would start at one that is too large
example :
    (Document.build "k" [.leaf .keyName ⟨0, 1⟩, .leaf .assign ⟨0xFFFFFFFFFFFFFFFF, 0x10000000000000000⟩]).flat.atOffset
      ⟨.empty, default, default⟩ 0x10000000000000000 = .error .overflow := rfl

end Document
end Keyfile
