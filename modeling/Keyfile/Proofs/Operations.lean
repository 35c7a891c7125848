import Keyfile.Proofs.Lint

/-! Whatever is done to a machine, over any table and with any hooks. A journal tells how rows come and
go: each entry is followed by the event that ends it, unless the row is still current, and hooks are
called by these events alone. -/
namespace Keyfile.Adjacency

/-- What can be done to a machine. -/
inductive Operation where
  | process (ctx : Context) (node : Cursor)
  | finish (offset : Nat)
  | take
  | clear

def Operation.isTake : Operation → Bool
  | .take => true
  | _ => false

/-- How a row comes or goes. -/
inductive Event where
  /-- A row was entered with a node. -/
  | entered (row : Row) (ctx : Context) (node : Cursor)
  /-- The row was left with a node, which enters another one. -/
  | left (row : Row) (ctx : Context) (node : Cursor)
  /-- The row was broken off; `place` is that of the node that had entered it. -/
  | interrupted (row : Row) (place : Span) (cause : Interruption)
  /-- The row was given up without a word. -/
  | dropped (row : Row)

namespace Machine

/-- The machine after an operation. -/
def perform (m : Machine) : Operation → Machine
  | .process ctx node => m.process ctx node
  | .finish offset => m.finish offset
  | .take => m.take.2
  | .clear => m.clear

def performAll (m : Machine) (ops : List Operation) : Machine := ops.foldl perform m

@[simp] theorem performAll_nil (m : Machine) : m.performAll [] = m := rfl

@[simp] theorem performAll_cons (m : Machine) (op : Operation) (ops : List Operation) :
    m.performAll (op :: ops) = (m.perform op).performAll ops := rfl

/-- What a node that may not follow does to the current row. -/
def breaks (m : Machine) (node : Cursor) : List Event :=
  match m.current with
  | none => []
  | some row => if row.refuses node.kind then [.interrupted row m.entered (.node node.span)] else []

/-- How the machine moves on with a node. -/
def moves (m : Machine) (ctx : Context) (node : Cursor) : List Event :=
  match m.table.find? (·.accepts m.state node.kind) with
  | none => []
  | some next => (m.current.map fun row => Event.left row ctx node).toList ++ [.entered next ctx node]

/-- What an operation does to the rows, in order. -/
def events (m : Machine) : Operation → List Event
  | .process ctx node => m.breaks node ++ (m.interrupt node).moves ctx node
  | .finish offset =>
    match m.current with
    | none => []
    | some row =>
      if row.isTerminal then [.dropped row] else [.interrupted row m.entered (.endOfDocument offset)]
  | .take => []
  | .clear => (m.current.map Event.dropped).toList

/-- The events of operations, one after the other. -/
def journal (m : Machine) : List Operation → List Event
  | [] => []
  | op :: ops => m.events op ++ (m.perform op).journal ops

end Machine

namespace Event

/-- What an event does to a machine. Each calls one hook, if the row has it; a dropped row calls none. -/
def apply (m : Machine) : Event → Machine
  | .entered row ctx node =>
    { m with
      state := if row.isTerminal then none else some row.target
      current := some row
      entered := node.span
      diagnostics := row.entering ctx node m.diagnostics }
  | .left row ctx node =>
    { m with state := none, current := none, diagnostics := row.leaving ctx node m.diagnostics }
  | .interrupted row place cause =>
    { m with state := none, current := none, diagnostics := row.report place cause m.diagnostics }
  | .dropped _ => { m with state := none, current := none }

/-- Whether an event ends the stay in a row that was entered at a place. Only a row that waits for
something is broken off. -/
def Ends (row : Row) (place : Span) : Event → Prop
  | .entered _ _ _ => False
  | .left r _ _ => r = row
  | .interrupted r p _ => r = row ∧ p = place ∧ row.isTerminal = false
  | .dropped r => r = row

end Event

section Replay
variable (m : Machine) (ctx : Context) (node : Cursor)

lemma interrupt_eq_replay : m.interrupt node = (m.breaks node).foldl Event.apply m := by
  unfold Machine.interrupt Machine.breaks
  cases m.current with
  | none => rfl
  | some row =>
    simp only
    split <;> rfl

lemma advance_eq_replay : m.advance ctx node = (m.moves ctx node).foldl Event.apply m := by
  unfold Machine.advance Machine.moves
  cases m.table.find? (·.accepts m.state node.kind) with
  | none => rfl
  | some next =>
    cases current : m.current with
    | none => simp [Machine.enter, Machine.departing, current, Event.apply]
    | some row => simp [Machine.enter, Machine.departing, current, Event.apply]

/-- A node does to the machine what its events do. -/
lemma process_eq_replay :
    m.process ctx node = (m.events (.process ctx node)).foldl Event.apply m := by
  rw [Machine.process, Machine.events, List.foldl_append, ← interrupt_eq_replay, advance_eq_replay]

/-- The end of the document does to an orderly machine what its events do. -/
lemma finish_eq_replay (offset : Nat) (idle : m.current = none → m.state = none) :
    m.finish offset = (m.events (.finish offset)).foldl Event.apply m := by
  obtain ⟨table, state, current, entered, diagnostics⟩ := m
  cases current with
  | none =>
    cases idle rfl
    rfl
  | some row =>
    simp only [Machine.finish, Machine.events]
    split <;> rfl

end Replay

section Table
variable (m : Machine)

lemma table_apply (event : Event) : (event.apply m).table = m.table := by cases event <;> rfl

lemma table_replay (events : List Event) : (events.foldl Event.apply m).table = m.table := by
  induction events generalizing m with
  | nil => rfl
  | cons event events ih => rw [List.foldl_cons, ih, table_apply]

lemma table_perform (op : Operation) : (m.perform op).table = m.table := by
  cases op with
  | process ctx node =>
    rw [Machine.perform, process_eq_replay]
    exact table_replay m _
  | _ => rfl

/-- The table never changes. -/
lemma table_performAll (ops : List Operation) : (m.performAll ops).table = m.table := by
  induction ops generalizing m with
  | nil => rfl
  | cons op ops ih => exact (ih (m.perform op)).trans (table_perform m op)

end Table

/-- A journal that alternates between entries and their ends, and the row that was entered last, with
its place, if that stay has not ended. -/
inductive Lasting : List Event → Option (Row × Span) → Prop where
  | start : Lasting [] none
  | enter {journal : List Event} (row : Row) (ctx : Context) (node : Cursor) (h : Lasting journal none) :
      Lasting (journal ++ [.entered row ctx node]) (some (row, node.span))
  | leave {journal : List Event} {row : Row} {place : Span} {event : Event}
      (h : Lasting journal (some (row, place))) (ends : event.Ends row place) :
      Lasting (journal ++ [event]) none

namespace Lasting
variable {journal before after : List Event} {stay : Option (Row × Span)} {event : Event}

end Lasting

/-- A machine is in the row that its journal shows, and in the state of that row. -/
structure Follows (m : Machine) (journal : List Event) : Prop where
  lasting : Lasting journal (m.current.map fun row => (row, m.entered))
  state_eq : m.state = m.current.bind fun row => if row.isTerminal then none else some row.target

namespace Follows
variable {m : Machine} {journal : List Event}

lemma start (table : List Row) : Follows (Machine.start table) [] := ⟨Lasting.start, rfl⟩

lemma idle (h : Follows m journal) (current : m.current = none) : m.state = none := by
  rw [h.state_eq, current]
  rfl

lemma entered (h : Follows m journal) (current : m.current = none) (row : Row) (ctx : Context)
    (node : Cursor) : Follows (Event.apply m (.entered row ctx node)) (journal ++ [.entered row ctx node]) := by
  refine ⟨?_, rfl⟩
  have free := h.lasting
  rw [current] at free
  exact free.enter row ctx node

lemma ended (h : Follows m journal) (event : Event) {row : Row} (current : m.current = some row)
    (ends : event.Ends row m.entered) : Follows (event.apply m) (journal ++ [event]) := by
  have stay := h.lasting
  rw [current] at stay
  have closed := stay.leave ends
  cases event with
  | entered _ _ _ => exact ends.elim
  | left _ _ _ => exact ⟨closed, rfl⟩
  | interrupted _ _ _ => exact ⟨closed, rfl⟩
  | dropped _ => exact ⟨closed, rfl⟩

lemma interrupt (h : Follows m journal) (node : Cursor) :
    Follows (m.interrupt node) (journal ++ m.breaks node) := by
  rw [interrupt_eq_replay, Machine.breaks]
  cases current : m.current with
  | none => simpa using h
  | some row =>
    by_cases refused : row.refuses node.kind = true
    · have waits : row.isTerminal = false := by
        simp only [Row.refuses, Bool.and_eq_true, Bool.not_eq_true'] at refused
        exact refused.1
      simp only [if_pos refused]
      exact h.ended (.interrupted row m.entered (.node node.span)) current ⟨rfl, rfl, waits⟩
    · simpa [refused] using h

lemma advance (h : Follows m journal) (ctx : Context) (node : Cursor) :
    Follows (m.advance ctx node) (journal ++ m.moves ctx node) := by
  rw [advance_eq_replay, Machine.moves]
  cases m.table.find? (·.accepts m.state node.kind) with
  | none => simpa using h
  | some next =>
    cases current : m.current with
    | none => exact h.entered current next ctx node
    | some row =>
      have free := h.ended (.left row ctx node) current rfl
      simpa using free.entered rfl next ctx node

lemma perform (h : Follows m journal) (op : Operation) :
    Follows (m.perform op) (journal ++ m.events op) := by
  cases op with
  | process ctx node =>
    have moved := (h.interrupt node).advance ctx node
    rwa [List.append_assoc] at moved
  | finish offset =>
    rw [Machine.perform, finish_eq_replay m offset h.idle, Machine.events]
    cases current : m.current with
    | none => simpa using h
    | some row =>
      by_cases terminal : row.isTerminal = true
      · simp only [if_pos terminal]
        exact h.ended (.dropped row) current rfl
      · simp only [if_neg terminal]
        exact h.ended (.interrupted row m.entered (.endOfDocument offset)) current
          ⟨rfl, rfl, by simpa using terminal⟩
  | take =>
    rw [Machine.events, List.append_nil]
    exact ⟨h.lasting, h.state_eq⟩
  | clear =>
    rw [Machine.events]
    have lasting := h.lasting
    have idle : (m.perform .clear).current = none := rfl
    refine ⟨?_, rfl⟩
    rw [idle]
    cases current : m.current with
    | none =>
      rw [current] at lasting
      simpa using lasting
    | some row =>
      rw [current] at lasting
      exact lasting.leave rfl

lemma performAll (h : Follows m journal) (ops : List Operation) :
    Follows (m.performAll ops) (journal ++ m.journal ops) := by
  induction ops generalizing m journal with
  | nil => simpa [Machine.journal] using h
  | cons op ops ih =>
    have later := ih (h.perform op)
    rwa [List.append_assoc] at later

end Follows

section Causes
variable {m : Machine} {event : Event}

/-- A row that is still there after a node has arrived lets the node follow. -/
lemma current_interrupt {node : Cursor} {row : Row} (h : (m.interrupt node).current = some row) :
    m.current = some row ∧ row.refuses node.kind = false := by
  unfold Machine.interrupt at h
  cases current : m.current with
  | none => simp [current] at h
  | some waiting =>
    by_cases refused : waiting.refuses node.kind = true
    · simp [current, refused] at h
    · simp only [current, refused, Bool.false_eq_true, if_false] at h
      cases h
      simpa using refused

end Causes

end Keyfile.Adjacency
