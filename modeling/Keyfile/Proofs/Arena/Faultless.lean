import Keyfile.Analyzer
import Keyfile.Proofs.Arena.Answers
import Keyfile.Proofs.ReportOrder

/-! Requests on any tree. Whatever steps build a tree over a text, with nodes that overlap, end before
they start or lie outside the text, no request about it and no fix that is offered for it comes to a
fault. -/
namespace Keyfile
open Adjacency

/-! ### Diagnostics -/

/-- A slot as a node without surroundings. -/
def Slot.bare (s : Slot) : Cursor := ⟨⟨s.kind, s.span, []⟩, [], [], []⟩

/-- What a node of a flat tree is checked for when a row is entered with it. -/
abbrev SlotCheck := Arena → Schema → Nat → Checked (List Diagnostic)

namespace SlotCheck

def nothing : SlotCheck := fun _ _ _ => pure []

/-- A name that has to lead to an entry. -/
def name {ι : Type} [HasWildcards ι] (roots : Schema → List (Entry ι)) (message : Message) : SlotCheck :=
  fun a schema i => do
    let text ← a.textOf i
    let found ← resolveChecked (roots schema) (segments text)
    let s ← a.slot i
    pure (if found.isNone then [.warning s.span message] else [])

/-- A value that has to follow the rule of its key. -/
def value : SlotCheck := fun a schema i => do
  match ← a.keyOfValue? i with
  | none => pure []
  | some key => do
    let text ← a.textOf key
    let found ← resolveChecked schema.keys (segments text)
    match found.bind (·.entry.info.rule) with
    | none => pure []
    | some rule => do
      let typed ← a.textOf i
      let place ← a.slot key
      let s ← a.slot i
      pure (rule.check (trimmed typed) place.span s.span)

/-- The check of the row that leads to a state. -/
def of : State → SlotCheck
  | .containerName => name (·.containers) .containerUnknown
  | .keyName => name (·.keys) .keyUnknown
  | .value => value
  | _ => nothing

end SlotCheck

namespace Arena

/-- Feeds one node. -/
def process (a : Arena) (schema : Schema) (m : Machine) (i : Nat) : Checked Machine := do
  let s ← a.slot i
  let m := m.interrupt s.bare
  match table.find? (·.accepts m.state s.kind) with
  | none => pure m
  | some next => do
    let found ← SlotCheck.of next.target a schema i
    pure { m with
      state := if next.isTerminal then none else some next.target
      current := some next
      entered := s.span
      diagnostics := m.diagnostics ++ found }

/-- All diagnostics of a flat tree. -/
def diagnose (a : Arena) (schema : Schema) : Checked (List Diagnostic) := do
  let m ← (List.range a.slots.length).foldlM (a.process schema) (.start table)
  pure (m.finish (Text.bytes a.text.toList)).diagnostics

end Arena

namespace Document

variable {d : Document} {x : Cursor}

theorem checkValue_flat (schema : Schema) (h : x ∈ d.cursors) :
    SlotCheck.value d.flat schema x.position = .ok (checkValue ⟨schema, d⟩ x) := by
  rw [SlotCheck.value, keyOfValue?_flat h, Checked.ok_bind, checkValue]
  cases found : x.keyOfValue? with
  | none => rfl
  | some key =>
    have member := keyOfValue?_mem h found
    simp only [Option.map_some, textOf_flat h, slot_flat h, textOf_flat member, slot_flat member,
      resolveChecked_eq, Checked.ok_bind, Cursor.span_slot, ruleOf?, resolve?]
    cases (resolveSegments? schema.keys (segments (d.textOf key))).bind (·.entry.info.rule) <;> rfl

theorem check_flat (schema : Schema) (h : x ∈ d.cursors) (s : State) :
    SlotCheck.of s d.flat schema x.position = .ok ((entry s).entering ⟨schema, d⟩ x []) := by
  cases s with
  | containerName =>
    simp only [SlotCheck.of, SlotCheck.name, textOf_flat h, slot_flat h, resolveChecked_eq, Checked.ok_bind]
    rfl
  | keyName =>
    simp only [SlotCheck.of, SlotCheck.name, textOf_flat h, slot_flat h, resolveChecked_eq, Checked.ok_bind]
    rfl
  | value => exact checkValue_flat schema h
  | _ => rfl

/-- One node. -/
theorem process_flat (schema : Schema) (h : x ∈ d.cursors) {older? last? : Option Cursor} {m : Machine}
    (tracks : Tracks older? last? m) :
    d.flat.process schema m x.position = .ok (Machine.process ⟨schema, d⟩ m x) := by
  obtain ⟨rows, -, -, quiet, -⟩ := tracks.interrupt_spec d x
  have same : m.interrupt x.slot.bare = m.interrupt x := rfl
  rw [Arena.process, slot_flat h, Checked.ok_bind, same, Machine.process,
    advance_spec ⟨schema, d⟩ x rows quiet]
  dsimp only
  rw [find?_table, Cursor.kind_slot]
  cases reached? (m.interrupt x).state x.kind with
  | none => rfl
  | some s =>
    simp only [Option.map_some, target_entry, check_flat schema h, Checked.ok_bind, Cursor.span_slot]
    rfl

/-- The nodes from some point on. -/
theorem foldlM_process_flat (schema : Schema) {older? last? : Option Cursor} {m : Machine}
    (tracks : Tracks older? last? m) (xs : List Cursor) (h : xs ⊆ d.cursors) :
    (xs.map Cursor.position).foldlM (d.flat.process schema) m
      = .ok (xs.foldl (Machine.process ⟨schema, d⟩) m) := by
  induction xs generalizing older? last? m with
  | nil => rfl
  | cons x xs ih =>
    have here := h List.mem_cons_self
    rw [List.map_cons, List.foldlM_cons, process_flat schema here tracks, Checked.ok_bind, List.foldl_cons]
    exact ih (tracks.process schema d x).1 fun y later => h (List.mem_cons_of_mem x later)

theorem diagnose_flat (d : Document) (schema : Schema) :
    d.flat.diagnose schema = .ok (Keyfile.diagnose schema d) := by
  have positions : List.range d.flat.slots.length = d.cursors.map Cursor.position := by
    rw [map_position_cursors, slots_flat, List.length_map]
  rw [Arena.diagnose, positions, foldlM_process_flat schema tracks_start d.cursors (List.Subset.refl _)]
  rfl

end Document

/-! ### Fixes -/

/-- The text after a change, put together from its parts. -/
def TextEdit.applyChecked (e : TextEdit) (text : String) : Checked String :=
  if e.span.stop < e.span.start || !Text.isBoundary text.toList e.span.start ||
      !Text.isBoundary text.toList e.span.stop then pure text
  else do
    let _ ← Checked.add (Text.bytes text.toList) (Text.bytes e.insert.toList)
    let front ← Checked.upTo text.toList e.span.start
    let back ← Checked.onward text.toList e.span.stop
    pure (String.ofList (front ++ e.insert.toList ++ back))

theorem TextEdit.applyChecked_eq {e : TextEdit} {text : String}
    (short : Text.bytes text.toList + Text.bytes e.insert.toList < wordLimit) :
    e.applyChecked text = .ok (e.apply text) := by
  rw [TextEdit.applyChecked]
  split
  next refused =>
    have outside : ¬e.span.Within text.toList := by
      intro within
      have ordered := within.ordered
      simp [within.start_boundary, within.stop_boundary] at refused
      omega
    rw [TextEdit.apply_of_not_within outside, Checked.pure_eq]
  next accepted =>
    simp only [Bool.or_eq_true, decide_eq_true_eq, Bool.not_eq_true', not_or, Bool.not_eq_false] at accepted
    obtain ⟨⟨ordered, starts⟩, stops⟩ := accepted
    obtain ⟨front, middle, back, whole, place, applied⟩ :=
      TextEdit.apply_of_within (Span.within_of_boundaries (by omega) starts stops)
    have upper := Checked.upTo_append front (middle ++ back)
    have lower := Checked.onward_append (front ++ middle) back
    rw [List.append_assoc, Text.bytes_append] at lower
    rw [Checked.add_eq short, Checked.ok_bind, applied, place, whole, upper, Checked.ok_bind, lower,
      Checked.ok_bind, List.append_assoc, Checked.pure_eq]

/-- A fix adds no more than one byte. -/
theorem bytes_insert_le {schema : Schema} {d : Document} {x : Diagnostic} (reported : x ∈ diagnose schema d)
    {fix : Fix} (offered : fix ∈ x.fixes) : Text.bytes fix.edit.insert.toList ≤ 1 := by
  rw [diagnose_eq_windows, List.mem_flatMap] at reported
  obtain ⟨⟨older?, last?, next?⟩, -, reported⟩ := reported
  rcases List.mem_append.1 reported with broken | found
  · cases last? with
    | none => cases broken
    | some last =>
      obtain ⟨first, rest, split⟩ := List.append_of_mem broken
      obtain ⟨-, -, ⟨-, rfl⟩ | ⟨-, -, rfl⟩ | ⟨-, -, rfl⟩ | ⟨-, -, rfl⟩⟩ := interruption_eq_append_cons split
      · cases offered
      · obtain rfl := List.mem_singleton.1 offered
        exact (by decide : Text.bytes "]".toList ≤ 1)
      · obtain rfl := List.mem_singleton.1 offered
        exact (by decide : Text.bytes "=".toList ≤ 1)
      · cases offered
  · cases next? with
    | none => cases found
    | some next =>
      obtain ⟨-, ⟨-, none_offered⟩ | ⟨key, -, -, -, -, rfl⟩⟩ := mem_findings schema found
      · rw [none_offered] at offered
        cases offered
      · obtain rfl := List.mem_singleton.1 offered
        exact (by decide : Text.bytes "".toList ≤ 1)

/-! ### All requests -/

namespace Analyzer

/-- The diagnostics of a flat tree. -/
def diagnoseFlat (z : Analyzer) (a : Arena) : Checked (List Diagnostic) :=
  if z.settings.features.diagnostics then a.diagnose z.schema else pure []

/-- What completion at an offset of a flat tree takes. -/
def planFlat (z : Analyzer) (a : Arena) (offset : Nat) : Checked Plan :=
  if z.settings.features.completion then a.atOffset (z.completer default) offset else pure (.settled none)

/-- Hover at an offset of a flat tree. -/
def hoverFlat (z : Analyzer) (a : Arena) (offset : Nat) : Checked (Option HoverInfo) :=
  if z.settings.features.hover then a.hoverAt z.schema offset else pure none

end Analyzer

/-- Texts in memory are shorter than this. -/
def textLimit : Nat := 0x8000000000000000

/-- Steps of any kind over a text build a flat tree without a fault, and no request about it meets one:
diagnostics, completion and hover at any offset are those of the document, and every fix is applied as it
is to the text. -/
theorem any_steps_without_fault (text : String) (short : Text.bytes text.toList < textLimit)
    (steps : List BuildStep) (z : Analyzer) (offset : Nat) (word : offset < wordLimit) :
    ∃ a, Arena.build text steps = .ok a ∧
      z.diagnoseFlat a = .ok (z.diagnose (.build text steps)) ∧
      z.planFlat a offset = .ok (z.plan (.build text steps) offset) ∧
      z.hoverFlat a offset = .ok (z.hoverAt (.build text steps) offset) ∧
      ∀ x ∈ z.diagnose (.build text steps), ∀ fix ∈ x.fixes,
        fix.edit.applyChecked text = .ok (fix.apply text) := by
  have small : (Document.build text steps).size < wordLimit := by
    rw [Document.size, Document.text_build]
    exact Nat.lt_trans short (by decide)
  refine ⟨_, Arena.build_eq text steps, ?_, ?_, ?_, ?_⟩
  · rw [Analyzer.diagnoseFlat, Analyzer.diagnose, Document.diagnose_flat]
    split <;> rfl
  · rw [Analyzer.planFlat, Analyzer.plan, Document.atOffset_flat _ small word]
    split <;> rfl
  · rw [Analyzer.hoverFlat, Analyzer.hoverAt, Document.hoverAt_flat _ small]
    split <;> rfl
  · intro x reported fix offered
    rw [Analyzer.diagnose] at reported
    split at reported
    next =>
      have added := bytes_insert_le reported offered
      apply TextEdit.applyChecked_eq
      unfold textLimit at short
      unfold wordLimit
      omega
    next => cases reported

/-- A key that takes whole numbers, named by a letter of two bytes. -/
def letterKey : Schema :=
  ⟨[], [⟨"é", "Letter", ⟨.value, some ⟨some .int, none, none, none⟩⟩, none⟩]⟩

/-- Steps that close what is not open, end a key inside a letter, put an equals sign between the last two
words, leave a node open, and end a node before its start. -/
def astray : List BuildStep :=
  [.exit 7, .leaf .keyName ⟨0, 1⟩, .leaf .keyName ⟨0, 2⟩,
    .leaf .assign ⟨0xFFFFFFFFFFFFFFFE, 0xFFFFFFFFFFFFFFFF⟩, .enter .number 2, .leaf .containerName ⟨2, 1⟩]

/-- The value after the equals sign starts at the last word, and the fix inside the letter changes
nothing. -/
theorem any_steps_without_fault_astray :
    Text.bytes "é".toList < textLimit ∧ 0xFFFFFFFFFFFFFFFF < wordLimit ∧
      ∃ a, Arena.build "é" astray = .ok a ∧
        (Analyzer.plain letterKey default).diagnoseFlat a
          = .ok [.warning ⟨0, 1⟩ .keyUnknown, missingAssign 1, .error ⟨2, 2⟩ .notInt] ∧
        (Analyzer.plain letterKey default).planFlat a 0xFFFFFFFFFFFFFFFF
          = .ok (.ask ⟨.value, "é", ""⟩ 0xFFFFFFFFFFFFFFFF none .text) ∧
        (Analyzer.plain letterKey default).hoverFlat a 0xFFFFFFFFFFFFFFFF = .ok none ∧
        ∀ fix ∈ (missingAssign 1).fixes, fix.edit.applyChecked "é" = .ok "é" := by
  have short : Text.bytes "é".toList < textLimit := by decide
  have word : 0xFFFFFFFFFFFFFFFF < wordLimit := by decide
  have reports : (Analyzer.plain letterKey default).diagnose (.build "é" astray)
      = [.warning ⟨0, 1⟩ .keyUnknown, missingAssign 1, .error ⟨2, 2⟩ .notInt] := by decide +kernel
  obtain ⟨a, built, diagnosed, planned, hovered, fixed⟩ :=
    any_steps_without_fault "é" short astray (.plain letterKey default) _ word
  refine ⟨short, word, a, built, reports ▸ diagnosed, ?_, ?_, ?_⟩
  · rw [planned]
    decide +kernel
  · rw [hovered]
    decide +kernel
  · intro fix offered
    rw [fixed (missingAssign 1) (by rw [reports]; simp) fix offered]
    obtain rfl := List.mem_singleton.1 offered
    decide +kernel

end Keyfile
