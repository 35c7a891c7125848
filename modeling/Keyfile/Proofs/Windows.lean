import Keyfile.Adjacency.Table
import Mathlib.Tactic.Common

/-! The report of a document, read off its nodes three at a time. A window holds the last two nodes and
the one that comes next; what it says depends on nothing before it. The run of the machine over any
document gives exactly what the windows say, in order. -/
namespace Keyfile.Adjacency

/-- What is seen of a node: its kind, its place and its text. -/
structure Token where
  kind : Kind
  span : Span
  text : String
  deriving DecidableEq, Repr, Inhabited

/-- The last two things read, if there were so many, and the next one, unless the end is reached. -/
structure Window (α : Type) where
  older? : Option α
  last? : Option α
  next? : Option α
  deriving DecidableEq, Repr

variable {α β : Type}

def Window.map (f : α → β) (w : Window α) : Window β :=
  ⟨w.older?.map f, w.last?.map f, w.next?.map f⟩

/-- The windows along a list: one for each element, and one for the end. -/
def windows (older? last? : Option α) : List α → List (Window α)
  | [] => [⟨older?, last?, none⟩]
  | x :: xs => ⟨older?, last?, some x⟩ :: windows last? (some x) xs

/-- The error of a token that is not followed by what it asks for. `older?` is the kind before it,
`next?` the kind after it, and `place` is where the latter stands. -/
def interruption (older? : Option Kind) (last : Token) (next? : Option Kind) (place : Span) :
    List Diagnostic :=
  match last.kind with
  | .containerStart =>
    if next? = some .containerName then [] else [.error place .containerNameMissing]
  | .containerName =>
    if older? = some .containerStart ∧ next? ≠ some .containerEnd then
      [(Diagnostic.error (.point last.span.stop) .containerEndMissing).withFix .fix
        (.insertion last.span.stop "]")]
    else []
  | .keyName =>
    if next? = some .assign then []
    else
      [(Diagnostic.error (.point last.span.stop) .assignMissing).withFix .fix
        (.insertion last.span.stop "=")]
  | .assign =>
    if older? = some .keyName ∧ next?.any Kind.isLiteral = false then [.error place .valueMissing]
    else []
  | _ => []

/-- What the schema says of a token after two others. `key?` is the key that the token belongs to if it
is a value. -/
def findings (schema : Schema) (older? last? : Option Kind) (token : Token) (key? : Option Token) :
    List Diagnostic :=
  match token.kind with
  | .containerName =>
    if last? = some .containerStart ∧ (resolve? schema.containers token.text).isNone then
      [.warning token.span .containerUnknown]
    else []
  | .keyName =>
    if (resolve? schema.keys token.text).isNone then [.warning token.span .keyUnknown] else []
  | kind =>
    if older? = some .keyName ∧ last? = some .assign ∧ kind.isLiteral then
      match key? with
      | none => []
      | some key =>
        match ruleOf? schema key.text with
        | none => []
        | some rule => rule.check (trimmed token.text) key.span token.span
    else []

namespace Window

def olderKind? (w : Window Token) : Option Kind := w.older?.map (·.kind)
def lastKind? (w : Window Token) : Option Kind := w.last?.map (·.kind)
def nextKind? (w : Window Token) : Option Kind := w.next?.map (·.kind)

/-- The place of the next token, or else the end of the document. -/
def place (w : Window Token) (size : Nat) : Span := (w.next?.map (·.span)).getD (.point size)

/-- All that a window says: first the error of what the next token breaks off, then what the schema
says of the next token. -/
def report (schema : Schema) (size : Nat) (key? : Option Token) (w : Window Token) : List Diagnostic :=
  (w.last?.map fun last => interruption w.olderKind? last w.nextKind? (w.place size)).getD [] ++
    (w.next?.map fun token => findings schema w.olderKind? w.lastKind? token key?).getD []

end Window
end Keyfile.Adjacency

namespace Keyfile

def Document.token (d : Document) (c : Cursor) : Adjacency.Token := ⟨c.kind, c.span, d.textOf c⟩

namespace Adjacency

/-- What a window of nodes says. A value belongs to the key that its left neighbours show, which need
not be the node read before the equals sign when nodes are nested. -/
def Window.reportIn (schema : Schema) (d : Document) (w : Window Cursor) : List Diagnostic :=
  (w.map d.token).report schema d.size ((w.next?.bind (·.keyOfValue?)).map d.token)

/-- The row that leads to a state. -/
def entry : State → Row
  | .containerStart => table[0]
  | .containerName => table[1]
  | .containerEnd => table[2]
  | .keyName => table[3]
  | .assign => table[4]
  | .value => table[5]

/-- The state that a node leads to, if any row takes it. -/
def reached? : Option State → Kind → Option State
  | _, .containerStart => some .containerStart
  | some .containerStart, .containerName => some .containerName
  | some .containerName, .containerEnd => some .containerEnd
  | _, .keyName => some .keyName
  | some .keyName, .assign => some .assign
  | some .assign, .string => some .value
  | some .assign, .number => some .value
  | some .assign, .boolean => some .value
  | _, _ => none

lemma find?_table (state : Option State) (kind : Kind) :
    table.find? (·.accepts state kind) = (reached? state kind).map entry := by
  rcases state with _ | state
  · cases kind <;> rfl
  · cases state <;> cases kind <;> rfl

/-- The state that the last two nodes leave the machine in. -/
def awaiting (older? last? : Option Kind) : Option State :=
  match last? with
  | some .containerStart => some .containerStart
  | some .containerName => if older? = some .containerStart then some .containerName else none
  | some .keyName => some .keyName
  | some .assign => if older? = some .keyName then some .assign else none
  | _ => none

/-- The state that is left of it when a node arrives: none if the node breaks it off. -/
def kept? : Option State → Kind → Option State
  | some .containerStart, .containerName => some .containerStart
  | some .containerName, .containerEnd => some .containerName
  | some .keyName, .assign => some .keyName
  | some .assign, .string => some .assign
  | some .assign, .number => some .assign
  | some .assign, .boolean => some .assign
  | _, _ => none

/-- The machine knows the last two nodes and nothing else. A terminal row may linger while it is idle,
but such a row neither reports nor checks anything any more. -/
structure Tracks (older? last? : Option Cursor) (m : Machine) : Prop where
  table_eq : m.table = table
  state_eq : m.state = awaiting (older?.map (·.kind)) (last?.map (·.kind))
  waiting : ∀ s, m.state = some s →
    m.current = some (entry s) ∧ ∃ last, last? = some last ∧ m.entered = last.span
  idle : m.state = none → ∀ row, m.current = some row → row.isTerminal = true
  quiet : ∀ row, m.current = some row → row.onLeave = none

lemma tracks_start : Tracks none none (Machine.start table) := by
  refine ⟨rfl, rfl, ?_, ?_, ?_⟩
  · intro s h
    cases h
  · intro _ row h
    cases h
  · intro row h
    cases h

lemma onLeave_entry (s : State) : (entry s).onLeave = none := by cases s <;> rfl

/-- What the rows report comes after the diagnostics so far. -/
lemma report_entry (s : State) (entered : Span) (cause : Interruption) (out : List Diagnostic) :
    (entry s).report entered cause out = out ++ (entry s).report entered cause [] := by
  cases s with
  | containerEnd => exact (List.append_nil out).symm
  | value => exact (List.append_nil out).symm
  | _ => rfl

/-- What the rows find on entering comes after the diagnostics so far. -/
lemma entering_entry (s : State) (ctx : Context) (node : Cursor) (out : List Diagnostic) :
    (entry s).entering ctx node out = out ++ (entry s).entering ctx node [] := by
  cases s with
  | containerName => rfl
  | keyName => rfl
  | value => rfl
  | _ => exact (List.append_nil out).symm

/-- What is broken off is what the awaited row reports. -/
lemma interruption_eq_report (older? : Option Kind) (last : Token) (next? : Option Kind)
    (cause : Interruption) :
    interruption older? last next? cause.span =
      match awaiting older? (some last.kind) with
      | none => []
      | some s =>
        if next?.any (fun kind => !(entry s).refuses kind) then []
        else (entry s).report last.span cause [] := by
  obtain ⟨kind, span, text⟩ := last
  cases kind with
  | containerStart =>
    rcases next? with _ | next
    · rfl
    · cases next <;> rfl
  | containerName =>
    by_cases h : older? = some .containerStart
    · subst h
      rcases next? with _ | next
      · rfl
      · cases next <;> rfl
    · simp [interruption, awaiting, h]
  | keyName =>
    rcases next? with _ | next
    · rfl
    · cases next <;> rfl
  | assign =>
    by_cases h : older? = some .keyName
    · subst h
      rcases next? with _ | next
      · rfl
      · cases next <;> rfl
    · simp [interruption, awaiting, h]
  | _ => rfl

lemma kept?_eq (older? last? : Option Kind) (kind : Kind) :
    kept? (awaiting older? last?) kind =
      (awaiting older? last?).filter (fun s => !(entry s).refuses kind) := by
  unfold awaiting
  split
  · cases kind <;> rfl
  · split
    · cases kind <;> rfl
    · rfl
  · cases kind <;> rfl
  · split
    · cases kind <;> rfl
    · rfl
  · rfl

/-- A node that breaks nothing off is always taken by a row. -/
lemma kept?_eq_none {state : Option State} {kind : Kind}
    (h : reached? (kept? state kind) kind = none) : kept? state kind = none := by
  unfold kept? at h ⊢
  split <;> simp_all [reached?]

/-- The state after a node depends on it and the node before it. -/
lemma awaiting_some (older? last? : Option Kind) (kind : Kind) :
    awaiting last? (some kind) =
      (reached? (kept? (awaiting older? last?) kind) kind).filter (fun s => !(entry s).isTerminal) := by
  rcases last? with _ | last
  · cases kind <;> rfl
  · cases last with
    | containerName =>
      by_cases h : older? = some .containerStart
      · subst h
        cases kind <;> rfl
      · simp only [awaiting, h, if_false]
        cases kind <;> rfl
    | assign =>
      by_cases h : older? = some .keyName
      · subst h
        cases kind <;> rfl
      · simp only [awaiting, h, if_false]
        cases kind <;> rfl
    | _ => cases kind <;> rfl

lemma awaiting_eq_containerStart_iff {older? last? : Option Kind} :
    awaiting older? last? = some .containerStart ↔ last? = some .containerStart := by
  unfold awaiting
  split <;> simp_all

lemma awaiting_eq_assign_iff {older? last? : Option Kind} :
    awaiting older? last? = some .assign ↔ older? = some .keyName ∧ last? = some .assign := by
  unfold awaiting
  split <;> simp_all

lemma reached?_containerName (state : Option State) :
    reached? (kept? state .containerName) .containerName =
      if state = some .containerStart then some .containerName else none := by
  rcases state with _ | state
  · rfl
  · cases state <;> rfl

lemma reached?_keyName (state : Option State) : reached? state .keyName = some .keyName := by
  rcases state with _ | state
  · rfl
  · cases state <;> rfl

lemma reached?_literal (state : Option State) {kind : Kind} (literal : kind ∈ Kind.literals) :
    reached? (kept? state kind) kind = if state = some .assign then some .value else none := by
  simp only [Kind.literals, List.mem_cons, List.not_mem_nil, or_false] at literal
  rcases state with _ | state
  · rcases literal with rfl | rfl | rfl <;> rfl
  · rcases literal with rfl | rfl | rfl <;> cases state <;> rfl

lemma findings_literal (schema : Schema) (d : Document) (older? last? : Option Kind) (node : Cursor)
    (literal : node.kind ∈ Kind.literals) :
    findings schema older? last? (d.token node) (node.keyOfValue?.map d.token) =
      if older? = some .keyName ∧ last? = some .assign then checkValue ⟨schema, d⟩ node else [] := by
  have found : checkValue ⟨schema, d⟩ node =
      match node.keyOfValue?.map d.token with
      | none => []
      | some key =>
        match ruleOf? schema key.text with
        | none => []
        | some rule => rule.check (trimmed (d.token node).text) key.span (d.token node).span := by
    unfold checkValue
    cases node.keyOfValue? <;> rfl
  obtain ⟨⟨kind, span, children⟩, before, after, above⟩ := node
  rw [found]
  change kind ∈ Kind.literals at literal
  simp only [Kind.literals, List.mem_cons, List.not_mem_nil, or_false] at literal
  rcases literal with rfl | rfl | rfl <;>
    simp [findings, Document.token, Cursor.kind, Kind.isLiteral, Kind.literals]

/-- What the schema says of a node is what the row entered by it checks. -/
lemma findings_eq_check (schema : Schema) (d : Document) (older? last? : Option Kind) (node : Cursor) :
    findings schema older? last? (d.token node) (node.keyOfValue?.map d.token) =
      ((reached? (kept? (awaiting older? last?) node.kind) node.kind).map fun s =>
        (entry s).entering ⟨schema, d⟩ node []).getD [] := by
  by_cases literal : node.kind ∈ Kind.literals
  · rw [findings_literal schema d older? last? node literal, reached?_literal _ literal]
    simp only [awaiting_eq_assign_iff]
    split <;> rfl
  obtain ⟨⟨kind, span, children⟩, before, after, above⟩ := node
  change kind ∉ Kind.literals at literal
  simp only [Cursor.kind]
  generalize hs : kept? (awaiting older? last?) kind = state
  cases kind with
  | containerName =>
    rw [← hs, reached?_containerName]
    simp only [awaiting_eq_containerStart_iff]
    by_cases h : last? = some .containerStart
    · subst h
      simp only [findings, Document.token, Cursor.kind, true_and]
      rfl
    · simp [findings, Document.token, Cursor.kind, h]
  | keyName =>
    rw [reached?_keyName]
    rfl
  | string => simp [Kind.literals] at literal
  | number => simp [Kind.literals] at literal
  | boolean => simp [Kind.literals] at literal
  | _ =>
    rcases state with _ | state
    · simp [findings, Document.token, Cursor.kind, Kind.isLiteral, Kind.literals]; rfl
    · cases state <;> simp [findings, Document.token, Cursor.kind, Kind.isLiteral, Kind.literals] <;> rfl

lemma target_entry (s : State) : (entry s).target = s := by cases s <;> rfl

/-- What a node breaks off, by the two nodes before it. -/
def Window.broken (d : Document) (older? last? : Option Cursor) (next? : Option Kind) (place : Span) :
    List Diagnostic :=
  (last?.map fun last => interruption (older?.map (·.kind)) (d.token last) next? place).getD []

namespace Tracks
variable {older? last? : Option Cursor} {m : Machine}

lemma interrupt_idle (h : Tracks older? last? m) (hs : m.state = none) (node : Cursor) :
    m.interrupt node = m := by
  unfold Machine.interrupt
  cases hc : m.current with
  | none => rfl
  | some row =>
    have terminal := h.idle hs row hc
    simp [Row.refuses, terminal]

lemma broken_idle (h : Tracks older? last? m) (hs : m.state = none) (d : Document)
    (next? : Option Kind) (cause : Interruption) :
    Window.broken d older? last? next? cause.span = [] := by
  cases last? with
  | none => rfl
  | some last =>
    have idle := h.state_eq.symm.trans hs
    simp only [Option.map_some] at idle
    simp only [Window.broken, Option.map_some, Option.getD_some, interruption_eq_report]
    rw [show (d.token last).kind = last.kind from rfl, idle]

lemma broken_waiting (h : Tracks older? last? m) {s : State} (hs : m.state = some s) (d : Document)
    (next? : Option Kind) (cause : Interruption) :
    Window.broken d older? last? next? cause.span =
      if next?.any (fun kind => !(entry s).refuses kind) then []
      else (entry s).report m.entered cause [] := by
  obtain ⟨-, last, rfl, entered⟩ := h.waiting s hs
  have state := h.state_eq.symm.trans hs
  simp only [Option.map_some] at state
  simp only [Window.broken, Option.map_some, Option.getD_some, interruption_eq_report]
  rw [show (d.token last).kind = last.kind from rfl, state, entered]
  rfl

/-- After the interruption the machine is in the state that is kept, and has reported what was broken
off. -/
lemma interrupt_spec (h : Tracks older? last? m) (d : Document) (node : Cursor) :
    (m.interrupt node).table = table ∧
    (m.interrupt node).state =
      kept? (awaiting (older?.map (·.kind)) (last?.map (·.kind))) node.kind ∧
    ((m.interrupt node).state = none →
      ∀ row, (m.interrupt node).current = some row → row.isTerminal = true) ∧
    (∀ row, (m.interrupt node).current = some row → row.onLeave = none) ∧
    (m.interrupt node).diagnostics =
      m.diagnostics ++ Window.broken d older? last? (some node.kind) node.span := by
  rw [kept?_eq, ← h.state_eq]
  cases hs : m.state with
  | none =>
    have broken : Window.broken d older? last? (some node.kind) node.span = [] :=
      h.broken_idle hs d _ (.node node.span)
    rw [h.interrupt_idle hs, broken, hs]
    exact ⟨h.table_eq, rfl, fun _ => h.idle hs, h.quiet, by simp⟩
  | some s =>
    have broken : Window.broken d older? last? (some node.kind) node.span = _ :=
      h.broken_waiting hs d _ (.node node.span)
    obtain ⟨current, -⟩ := h.waiting s hs
    simp only [broken, Machine.interrupt, current]
    by_cases refused : (entry s).refuses node.kind = true
    · simp [refused, h.table_eq, Option.filter, report_entry s _ _ m.diagnostics]
    · simp only [Bool.not_eq_true] at refused
      simp [refused, h.table_eq, hs, current, onLeave_entry, Option.filter]

end Tracks

/-- A row is entered through the table; the row left behind has nothing to say. -/
lemma advance_spec {m : Machine} (ctx : Context) (node : Cursor) (ht : m.table = table)
    (quiet : ∀ row, m.current = some row → row.onLeave = none) :
    m.advance ctx node =
      match reached? m.state node.kind with
      | none => m
      | some s =>
        { m with
          state := if (entry s).isTerminal then none else some s
          current := some (entry s)
          entered := node.span
          diagnostics := m.diagnostics ++ (entry s).entering ctx node [] } := by
  have left : m.departing ctx node = m.diagnostics := by
    cases hc : m.current with
    | none => simp only [Machine.departing, hc]
    | some row => simp only [Machine.departing, hc, Row.leaving, quiet row hc]
  rw [Machine.advance, ht, find?_table]
  cases reached? m.state node.kind with
  | none => rfl
  | some s =>
    simp only [Option.map_some, Machine.enter, left, target_entry]
    rw [entering_entry, ht]

/-- One node: the machine goes on to know the last two nodes, and says what the window says. -/
lemma Tracks.process {older? last? : Option Cursor} {m : Machine} (h : Tracks older? last? m)
    (schema : Schema) (d : Document) (node : Cursor) :
    Tracks last? (some node) (Machine.process ⟨schema, d⟩ m node) ∧
    (Machine.process ⟨schema, d⟩ m node).diagnostics =
      m.diagnostics ++ Window.reportIn schema d ⟨older?, last?, some node⟩ := by
  obtain ⟨ht, hs, lingering, quiet, hd⟩ := h.interrupt_spec d node
  have next_state := awaiting_some (older?.map (·.kind)) (last?.map (·.kind)) node.kind
  have report : Window.reportIn schema d ⟨older?, last?, some node⟩ =
      Window.broken d older? last? (some node.kind) node.span ++
        ((reached? (m.interrupt node).state node.kind).map fun s =>
          (entry s).entering ⟨schema, d⟩ node []).getD [] := by
    rw [hs, ← findings_eq_check]
    cases older? <;> cases last? <;> rfl
  rw [Machine.process, advance_spec ⟨schema, d⟩ node ht quiet, report, ← List.append_assoc, ← hd]
  rw [← hs] at next_state
  cases hr : reached? (m.interrupt node).state node.kind with
  | none =>
    rw [hr] at next_state
    have idle : (m.interrupt node).state = none := by
      rw [hs] at hr ⊢
      exact kept?_eq_none hr
    refine ⟨⟨ht, idle.trans next_state.symm, ?_, lingering, quiet⟩, by simp⟩
    intro s waiting
    rw [idle] at waiting
    cases waiting
  | some s =>
    rw [hr] at next_state
    refine ⟨⟨ht, ?_, ?_, ?_, ?_⟩, rfl⟩
    · rw [Option.map_some, next_state]
      cases ht : (entry s).isTerminal <;> simp [Option.filter, ht]
    · intro s' waiting
      refine ⟨?_, node, rfl, rfl⟩
      cases ht : (entry s).isTerminal <;> simp_all
    · intro idle row current
      cases ht : (entry s).isTerminal <;> simp_all
    · intro row current
      simp only [Option.some.injEq] at current
      rw [← current, onLeave_entry]

lemma isTerminal_of_awaiting {older? last? : Option Kind} {s : State}
    (h : awaiting older? last? = some s) : (entry s).isTerminal = false := by
  unfold awaiting at h
  split at h
  · cases h
    rfl
  · split at h
    · cases h
      rfl
    · cases h
  · cases h
    rfl
  · split at h
    · cases h
      rfl
    · cases h
  · cases h

/-- The end of the document: only what was still waited for is reported. -/
lemma Tracks.finish {older? last? : Option Cursor} {m : Machine} (h : Tracks older? last? m)
    (schema : Schema) (d : Document) :
    (m.finish d.size).diagnostics = m.diagnostics ++ Window.reportIn schema d ⟨older?, last?, none⟩ := by
  have report : Window.reportIn schema d ⟨older?, last?, none⟩ =
      Window.broken d older? last? none (.point d.size) := by
    cases older? <;> cases last? <;> simp [Window.reportIn, Window.map, Window.report, Window.broken] <;> rfl
  rw [report, Machine.finish]
  cases hs : m.state with
  | none =>
    have broken : Window.broken d older? last? none (.point d.size) = [] :=
      h.broken_idle hs d _ (.endOfDocument d.size)
    rw [broken]
    cases hc : m.current with
    | none => simp
    | some row => simp [h.idle hs row hc]
  | some s =>
    have broken : Window.broken d older? last? none (.point d.size) = _ :=
      h.broken_waiting hs d _ (.endOfDocument d.size)
    have waits := isTerminal_of_awaiting (h.state_eq.symm.trans hs)
    simp [broken, (h.waiting s hs).1, waits, report_entry s _ _ m.diagnostics]

/-- All nodes from some point on, and the end. -/
lemma Tracks.foldl_process {older? last? : Option Cursor} {m : Machine} (h : Tracks older? last? m)
    (schema : Schema) (d : Document) (nodes : List Cursor) :
    ((nodes.foldl (Machine.process ⟨schema, d⟩) m).finish d.size).diagnostics =
      m.diagnostics ++ (windows older? last? nodes).flatMap (Window.reportIn schema d) := by
  induction nodes generalizing older? last? m with
  | nil => simp [windows, h.finish schema d]
  | cons node nodes ih =>
    obtain ⟨tracks, said⟩ := h.process schema d node
    rw [List.foldl_cons, ih tracks, said]
    simp [windows]

lemma diagnose_eq_windows (schema : Schema) (d : Document) :
    diagnose schema d = (windows none none d.cursors).flatMap (Window.reportIn schema d) :=
  tracks_start.foldl_process schema d d.cursors

/-- Whatever a machine did before, its run over a document gives what the windows along the nodes of
the document say, in order. -/
theorem run_eq_windows (schema : Schema) (d : Document) (state : Option State) (current : Option Row)
    (entered : Span) (diagnostics : List Diagnostic) :
    (Machine.run ⟨table, state, current, entered, diagnostics⟩ schema d).diagnostics =
      (windows none none d.cursors).flatMap (Window.reportIn schema d) :=
  tracks_start.foldl_process schema d d.cursors

end Adjacency
end Keyfile
