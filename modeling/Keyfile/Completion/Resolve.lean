import Keyfile.Completion.Matcher
import Keyfile.Completion.Plan
import Keyfile.Document.Assignment
import Keyfile.Document.Seek
import Keyfile.Schema.Check
import Keyfile.Schema.Lookup
import Keyfile.Settings

/-! Completion at a cursor. Names complete one dotted segment at a time from the schema, values from
the rule of their key. -/
namespace Keyfile

/-- What completion consults: the schema, how to match, and the document. -/
structure Completer where
  schema : Schema
  settings : CompletionSettings
  document : Document

namespace Completer

def accepts (c : Completer) (typed candidate : String) : Bool :=
  matchesTyped c.settings.ignoreCase typed candidate

/-- The entries that match what was typed, each presented as its kind says. -/
def offer {ι : Type} (c : Completer) (typed : String) (kind : Entry ι → OptionKind)
    (entries : List (Entry ι)) : List CompletionOption :=
  (entries.filter fun e => c.accepts typed e.value).map fun e => ⟨e.value, some e.title, kind e⟩

/-- Where the last segment of a name starts. -/
def segmentStart (span : Span) (name last : String) : Nat :=
  span.start + Text.bytes name.toList - Text.bytes last.toList

/-- Completion of a container name. A container without a list of children leaves them to the
application. -/
def container (c : Completer) (name : String) (span : Span) : Plan :=
  let parts := segments name
  let last := parts.getLastD ""
  let parents := parts.dropLast
  if parts.head? = some "" then .settled none
  else if parents.isEmpty then
    .settled (some ⟨span.start, some span.stop, c.offer last (fun _ => .constant) c.schema.containers⟩)
  else
    match resolveSegments? c.schema.containers parents with
    | none => .settled none
    | some found =>
      let start := segmentStart span name last
      match found.entry.children with
      | some children =>
        .settled (some ⟨start, some span.stop, c.offer last (fun _ => .constant) children⟩)
      | none => .ask ⟨.container, joinStrings '.' parents, last⟩ start (some span.stop) .constant

/-- How the keys of a level below the first are presented. -/
def keyKind (e : KeyEntry) : OptionKind := if e.isWildcard then .wildcard else .type

/-- Completion of a key. Where no entry matches, the application knows the names that a wildcard
stands for, or the further keys. -/
def key (c : Completer) (name : String) (span : Span) : Plan :=
  let parts := segments name
  let last := parts.getLastD ""
  let parents := parts.dropLast
  if parts.head? = some "" then .settled none
  else if parents.isEmpty then
    .settled (some ⟨span.start, some span.stop, c.offer last (fun _ => .type) c.schema.keys⟩)
  else
    match resolveSegments? c.schema.keys parents with
    | none => .settled none
    | some found =>
      let start := segmentStart span name last
      let path := joinStrings '.' parents
      let askKeys := Plan.ask ⟨.key, path, last⟩ start (some span.stop) .type
      match found.entry.children with
      | none => askKeys
      | some children =>
        let options := c.offer last keyKind children
        if options.isEmpty then
          match children.find? (·.isWildcard) with
          | none => askKeys
          | some wildcard =>
            .ask ⟨.wildcard, path ++ "." ++ wildcard.value, last⟩ start (some span.stop) .type
        else .settled (some ⟨start, some span.stop, options⟩)

/-- How values are presented. -/
def valueOptionKind : SuggestionSource → OptionKind
  | .condition => .choice
  | .samples => .text
  | .default => .constant

/-- Completion of a value of a key that starts at an offset. -/
def value (c : Completer) (start : Nat) (key typed : String) : Plan :=
  match resolve? c.schema.keys key with
  | none => .settled none
  | some found =>
    match found.entry.info.rule.bind (·.suggestions? c.settings.rangeLimit) with
    | some suggestions =>
      let values := suggestions.values.filter fun v => !suggestions.isNarrowed || c.accepts typed v
      .settled (some ⟨start, none, values.map (⟨·, none, valueOptionKind suggestions.source⟩)⟩)
    | none => .ask ⟨.value, key, typed⟩ start none .text

/-- Completion on an equals sign: the value starts right after it. -/
def afterAssign (c : Completer) (node : Cursor) : Plan :=
  match node.prevOfKind? .keyName with
  | none => .settled none
  | some key =>
    let typed := (node.next?.map c.document.textOf).getD ""
    c.value (node.span.start + 1) (c.document.textOf key) (trimmed typed)

/-- Completion in the blanks after an equals sign, where nothing is typed yet. -/
def afterGap (c : Completer) (assign : Cursor) (offset : Nat) : Plan :=
  match assign.prevOfKind? .keyName with
  | none => .settled none
  | some key => c.value offset (c.document.textOf key) ""

/-- Completion on a node that stands for a value. -/
def onValue (c : Completer) (node : Cursor) : Plan :=
  match node.keyOfValue? with
  | none => .settled none
  | some key => c.value node.span.start (c.document.textOf key) (trimmed (c.document.textOf node))

/-- Completion on a node. -/
def onNode (c : Completer) (node : Cursor) : Plan :=
  match node.kind with
  | .containerName => c.container (c.document.textOf node) node.span
  | .keyName => c.key (c.document.textOf node) node.span
  | .assign => c.afterAssign node
  | _ => c.onValue node

/-- The equals sign that only spaces and tabs separate from an offset. -/
def assignBefore? (d : Document) (offset : Nat) : Option Cursor :=
  match (d.rootCursor.children.takeWhile (·.span.stop ≤ offset)).getLast? with
  | none => none
  | some last =>
    if last.kind = .assign then
      match Span.slice? ⟨last.span.stop, offset⟩ d.text.toList with
      | none => none
      | some gap => if gap.all fun ch => ch == ' ' || ch == '\t' then some last else none
    else none

/-- Completion at a cursor. -/
def atOffset (c : Completer) (offset : Nat) : Plan :=
  let node := c.document.innermost offset .before
  if node.kind = .document then
    match assignBefore? c.document offset with
    | some assign => c.afterGap assign offset
    | none => c.onNode node
  else c.onNode node

end Completer
end Keyfile
