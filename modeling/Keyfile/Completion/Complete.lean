import Keyfile.Completion.Resolve

/-! Completion in one go. The application is asked at the place where the schema turns out to be open, and its
errors end the completion there. -/
namespace Keyfile
namespace Completer

variable {m : Type → Type} {ε : Type} [Monad m]

/-- Puts a question to the application, if there is one that can be asked. -/
def ask (provider : Option (Provider m ε)) (query : Query) : ExceptT ε m (Option (List String)) := do
  match provider with
  | none => return none
  | some suggest =>
    let labels ← ExceptT.mk (suggest query)
    return some labels

def completeContainer (c : Completer) (provider : Option (Provider m ε)) (name : String) (span : Span) :
    ExceptT ε m (Option Completion) := do
  let parts := segments name
  let last := parts.getLastD ""
  let parents := parts.dropLast
  if parts.head? = some "" then
    return none
  if parents.isEmpty then
    return some ⟨span.start, some span.stop, c.offer last (fun _ => .constant) c.schema.containers⟩
  let some found := resolveSegments? c.schema.containers parents | return none
  let start := segmentStart span name last
  if let some children := found.entry.children then
    return some ⟨start, some span.stop, c.offer last (fun _ => .constant) children⟩
  let labels ← ask provider ⟨.container, joinStrings '.' parents, last⟩
  return labels.map (.ofLabels start (some span.stop) .constant)

/-- A wildcard that no entry was found beside is asked for first, and only without one the further keys. -/
def completeKey (c : Completer) (provider : Option (Provider m ε)) (name : String) (span : Span) :
    ExceptT ε m (Option Completion) := do
  let parts := segments name
  let last := parts.getLastD ""
  let parents := parts.dropLast
  if parts.head? = some "" then
    return none
  if parents.isEmpty then
    return some ⟨span.start, some span.stop, c.offer last (fun _ => .type) c.schema.keys⟩
  let some found := resolveSegments? c.schema.keys parents | return none
  let start := segmentStart span name last
  let path := joinStrings '.' parents
  if let some children := found.entry.children then
    let options := c.offer last keyKind children
    unless options.isEmpty do
      return some ⟨start, some span.stop, options⟩
    if let some wildcard := children.find? (·.isWildcard) then
      let labels ← ask provider ⟨.wildcard, path ++ "." ++ wildcard.value, last⟩
      return labels.map (.ofLabels start (some span.stop) .type)
  let labels ← ask provider ⟨.key, path, last⟩
  return labels.map (.ofLabels start (some span.stop) .type)

def completeValue (c : Completer) (provider : Option (Provider m ε)) (start : Nat) (key typed : String) :
    ExceptT ε m (Option Completion) := do
  let some found := resolve? c.schema.keys key | return none
  if let some suggestions := found.entry.info.rule.bind (·.suggestions? c.settings.rangeLimit) then
    let values := suggestions.values.filter fun v => !suggestions.isNarrowed || c.accepts typed v
    return some ⟨start, none, values.map (⟨·, none, valueOptionKind suggestions.source⟩)⟩
  let labels ← ask provider ⟨.value, key, typed⟩
  return labels.map (.ofLabels start none .text)

def completeAfterAssign (c : Completer) (provider : Option (Provider m ε)) (node : Cursor) :
    ExceptT ε m (Option Completion) := do
  let some key := node.prevOfKind? .keyName | return none
  let typed := (node.next?.map c.document.textOf).getD ""
  c.completeValue provider (node.span.start + 1) (c.document.textOf key) (trimmed typed)

def completeAfterGap (c : Completer) (provider : Option (Provider m ε)) (assign : Cursor) (offset : Nat) :
    ExceptT ε m (Option Completion) := do
  let some key := assign.prevOfKind? .keyName | return none
  c.completeValue provider offset (c.document.textOf key) ""

def completeOnValue (c : Completer) (provider : Option (Provider m ε)) (node : Cursor) :
    ExceptT ε m (Option Completion) := do
  let some key := node.keyOfValue? | return none
  c.completeValue provider node.span.start (c.document.textOf key) (trimmed (c.document.textOf node))

def completeOnNode (c : Completer) (provider : Option (Provider m ε)) (node : Cursor) :
    ExceptT ε m (Option Completion) :=
  match node.kind with
  | .containerName => c.completeContainer provider (c.document.textOf node) node.span
  | .keyName => c.completeKey provider (c.document.textOf node) node.span
  | .assign => c.completeAfterAssign provider node
  | _ => c.completeOnValue provider node

/-- Completion at a cursor, with the application at hand or without it. -/
def completeAt (c : Completer) (provider : Option (Provider m ε)) (offset : Nat) :
    ExceptT ε m (Option Completion) := do
  let node := c.document.innermost offset .before
  if node.kind = .document then
    if let some assign := assignBefore? c.document offset then
      return ← c.completeAfterGap provider assign offset
  c.completeOnNode provider node

end Completer
end Keyfile
