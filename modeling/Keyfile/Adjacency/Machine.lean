import Keyfile.Diagnostic.Basic
import Keyfile.Document.Tree
import Keyfile.Schema.Entry

/-! A machine that watches which node follows which. It runs over the nodes of a document in order
and is driven by a table: a row is entered by the nodes it waits for and names the nodes that may come
next. Any other node, or the end of the document, is an interruption. -/
namespace Keyfile.Adjacency

/-- The node that was last entered in a valid place. -/
inductive State where
  | containerStart
  | containerName
  | containerEnd
  | keyName
  | assign
  | value
  deriving DecidableEq, Repr, Inhabited

namespace State

def name : State → String
  | .containerStart => "container-start"
  | .containerName => "container-identifier"
  | .containerEnd => "container-end"
  | .keyName => "value-identifier"
  | .assign => "assign"
  | .value => "value"

def ofName? : String → Option State
  | "container-start" => some .containerStart
  | "container-identifier" => some .containerName
  | "container-end" => some .containerEnd
  | "value-identifier" => some .keyName
  | "assign" => some .assign
  | "value" => some .value
  | _ => none

end State

/-- What broke off a row that was waiting for its successor. -/
inductive Interruption where
  /-- A node that may not follow. -/
  | node (span : Span)
  /-- The end of the document. -/
  | endOfDocument (offset : Nat)
  deriving DecidableEq, Repr

/-- The place of an interruption. -/
def Interruption.span : Interruption → Span
  | .node span => span
  | .endOfDocument offset => .point offset

/-- What checks on a node may consult. -/
structure Context where
  schema : Schema
  document : Document

/-- What becomes of the diagnostics so far when a row is entered or left with a node. -/
abbrev NodeHook := Context → Cursor → List Diagnostic → List Diagnostic

/-- What becomes of them on an interruption, given the place of the node that entered the row. -/
abbrev InterruptionHook := Span → Interruption → List Diagnostic → List Diagnostic

/-- Diagnostics about a node that a row is entered or left with. -/
abbrev NodeCheck := Context → Cursor → List Diagnostic

/-- Diagnostics about an interruption, given the place of the node that entered the row. -/
abbrev InterruptionReport := Span → Interruption → List Diagnostic

/-- The hook of a check: what it finds comes after the diagnostics so far. -/
def NodeCheck.hook (check : NodeCheck) : NodeHook := fun ctx node out => out ++ check ctx node

/-- The hook of a report: what it says comes after the diagnostics so far. -/
def InterruptionReport.hook (report : InterruptionReport) : InterruptionHook := fun entered cause out =>
  out ++ report entered cause

instance : Coe NodeCheck NodeHook := ⟨NodeCheck.hook⟩

instance : Coe InterruptionReport InterruptionHook := ⟨InterruptionReport.hook⟩

/-- A row of the table. -/
structure Row where
  /-- The state in which the row applies; without one it applies in any. -/
  source : Option State
  /-- Kinds of nodes that enter the row. -/
  triggers : List Kind
  target : State
  /-- Kinds of nodes that may come next; a row without any is terminal. -/
  leave : List Kind
  onEnter : Option NodeHook
  onLeave : Option NodeHook
  onError : Option InterruptionHook

namespace Row

def accepts (r : Row) (state : Option State) (kind : Kind) : Bool :=
  (r.source.isNone || r.source == state) && r.triggers.contains kind

def isTerminal (r : Row) : Bool := r.leave.isEmpty

/-- Whether a row waits for another kind of node. -/
def refuses (r : Row) (kind : Kind) : Bool := !r.isTerminal && !r.leave.contains kind

/-- The diagnostics after the row was entered with a node. -/
def entering (r : Row) (ctx : Context) (node : Cursor) (out : List Diagnostic) : List Diagnostic :=
  match r.onEnter with
  | none => out
  | some hook => hook ctx node out

/-- The diagnostics after the row was left with a node. -/
def leaving (r : Row) (ctx : Context) (node : Cursor) (out : List Diagnostic) : List Diagnostic :=
  match r.onLeave with
  | none => out
  | some hook => hook ctx node out

/-- The diagnostics after the row was broken off. -/
def report (r : Row) (entered : Span) (cause : Interruption) (out : List Diagnostic) : List Diagnostic :=
  match r.onError with
  | none => out
  | some hook => hook entered cause out

end Row

/-- The machine: its table, its state unless it is idle, the row it is in, the place of the node that
entered that row, and the diagnostics so far. -/
structure Machine where
  table : List Row
  state : Option State
  current : Option Row
  entered : Span
  diagnostics : List Diagnostic

namespace Machine

/-- An idle machine. -/
def start (table : List Row) : Machine := ⟨table, none, none, ⟨0, 0⟩, []⟩

/-- Back to idle, without diagnostics. -/
def clear (m : Machine) : Machine := start m.table

/-- The machine without the diagnostics that were taken from it. -/
def take (m : Machine) : List Diagnostic × Machine := (m.diagnostics, { m with diagnostics := [] })

/-- Ends the current row if it does not let a node follow. -/
def interrupt (m : Machine) (node : Cursor) : Machine :=
  match m.current with
  | none => m
  | some row =>
    if row.refuses node.kind then
      { m with
        state := none
        current := none
        diagnostics := row.report m.entered (.node node.span) m.diagnostics }
    else m

/-- The diagnostics after the current row, if there is one, was left with a node. -/
def departing (m : Machine) (ctx : Context) (node : Cursor) : List Diagnostic :=
  match m.current with
  | none => m.diagnostics
  | some row => row.leaving ctx node m.diagnostics

/-- Moves from the current row, if there is one, to the next. -/
def enter (m : Machine) (ctx : Context) (node : Cursor) (next : Row) : Machine :=
  { m with
    state := if next.isTerminal then none else some next.target
    current := some next
    entered := node.span
    diagnostics := next.entering ctx node (m.departing ctx node) }

/-- Takes the first row that accepts a node; where none does, all stays as it is. -/
def advance (m : Machine) (ctx : Context) (node : Cursor) : Machine :=
  match m.table.find? (·.accepts m.state node.kind) with
  | none => m
  | some next => m.enter ctx node next

/-- Feeds one node. -/
def process (ctx : Context) (m : Machine) (node : Cursor) : Machine := (m.interrupt node).advance ctx node

/-- Feeds the end of the document. -/
def finish (m : Machine) (offset : Nat) : Machine :=
  { m with
    state := none
    current := none
    diagnostics :=
      match m.current with
      | none => m.diagnostics
      | some row =>
        if row.isTerminal then m.diagnostics
        else row.report m.entered (.endOfDocument offset) m.diagnostics }

/-- Starts afresh and feeds a whole document. -/
def run (m : Machine) (schema : Schema) (d : Document) : Machine :=
  (d.cursors.foldl (process ⟨schema, d⟩) m.clear).finish d.size

end Machine
end Keyfile.Adjacency
