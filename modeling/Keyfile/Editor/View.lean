import Keyfile.Analyzer
import Keyfile.Editor.Position

/-! Results in the form that editors take: positions in place of offsets, and messages in words. -/
namespace Keyfile.Editor

/-- A diagnostic to publish. -/
structure Report where
  range : Range
  severity : Severity
  code : String
  source : String
  message : String
  deriving DecidableEq, Repr

/-- A quick fix to offer for a report. -/
structure Action where
  title : String
  report : Report
  uri : String
  range : Range
  newText : String
  preferred : Bool
  deriving DecidableEq, Repr

/-- A completion to offer. Items are sorted by their `sortText`. -/
structure Item where
  label : String
  kind : OptionKind
  detail : Option String
  sortText : String
  range : Range
  deriving DecidableEq, Repr

/-- A note to show at a pointer. -/
structure Note where
  markdown : String
  range : Range
  deriving DecidableEq, Repr

def report (catalog : Catalog) (source : String) (text : List Char) (d : Diagnostic) : Report :=
  ⟨Text.rangeOf text d.span, d.severity, d.message.code, source, catalog.message d.message⟩

/-- One action for each fix of a diagnostic; the first is the preferred one. -/
def actions (catalog : Catalog) (source uri : String) (text : List Char) (d : Diagnostic) : List Action :=
  d.fixes.mapIdx fun i fix =>
    ⟨catalog.fixLabel fix.label, report catalog source text d, uri, Text.rangeOf text fix.edit.span,
      fix.edit.insert, i == 0⟩

/-- A number with zeros before it to make five digits. -/
def fiveDigits (n : Nat) : String :=
  let digits := Nat.toDigits 10 n
  String.ofList (List.replicate (5 - digits.length) '0' ++ digits)

/-- The items of a completion that was asked for at a cursor, in their order. -/
def items (text : List Char) (cursor : Nat) (c : Completion) : List Item :=
  let range := Text.rangeOf text ⟨c.start, c.stop.getD cursor⟩
  c.options.mapIdx fun i option => ⟨option.label, option.kind, option.detail, fiveDigits i, range⟩

/-- Titles with the last in bold. -/
def emphasizeLast : List String → List String
  | [] => []
  | [title] => ["**" ++ title ++ "**"]
  | title :: rest => title :: emphasizeLast rest

def note (text : List Char) (info : HoverInfo) : Note :=
  ⟨" › ".intercalate (emphasizeLast info.titles), Text.rangeOf text ⟨info.start, info.stop⟩⟩

end Keyfile.Editor

namespace Keyfile.Analyzer

open Editor

/-- The diagnostics to publish for a document. -/
def reports (a : Analyzer) (d : Document) : List Report :=
  (a.diagnose d).map (report a.catalog a.settings.source d.text.toList)

/-- The quick fixes of all diagnostics that touch a range. A position past the last line stands for
the end of the text. -/
def actionsIn (a : Analyzer) (d : Document) (uri : String) (range : Range) : List Action :=
  let text := d.text.toList
  let start := (Text.offsetAt? text range.start.line range.start.column).getD d.size
  let stop := (Text.offsetAt? text range.stop.line range.stop.column).getD d.size
  ((a.diagnose d).filter fun g => g.span.start ≤ stop && start ≤ g.span.stop).flatMap
    (actions a.catalog a.settings.source uri text)

/-- The completions at a position. -/
def itemsAt {m : Type → Type} [Monad m] {ε : Type} (a : Analyzer) (provider : Option (Provider m ε))
    (d : Document) (p : Position) : m (Except ε (Option (List Item))) := do
  match Text.offsetAt? d.text.toList p.line p.column with
  | none => pure (.ok none)
  | some offset =>
    match ← a.completeAt provider d offset with
    | .error e => pure (.error e)
    | .ok result => pure (.ok (result.map (items d.text.toList offset)))

def noteAt (a : Analyzer) (d : Document) (p : Position) : Option Note :=
  (Text.offsetAt? d.text.toList p.line p.column).bind fun offset =>
    (a.hoverAt d offset).map (note d.text.toList)

end Keyfile.Analyzer
