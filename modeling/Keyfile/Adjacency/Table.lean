import Keyfile.Adjacency.Machine
import Keyfile.Document.Assignment
import Keyfile.Schema.Check
import Keyfile.Schema.Lookup

/-! The order of nodes in a well-formed document: a container name stands between brackets, a key
before an equals sign, and a value after it. Names and values are checked against the schema where
they stand in place. -/
namespace Keyfile.Adjacency

def reportContainerNameMissing : InterruptionReport := fun _ cause =>
  [.error cause.span .containerNameMissing]

def reportContainerEndMissing : InterruptionReport := fun entered _ =>
  [(Diagnostic.error (.point entered.stop) .containerEndMissing).withFix .fix (.insertion entered.stop "]")]

def reportAssignMissing : InterruptionReport := fun entered _ =>
  [(Diagnostic.error (.point entered.stop) .assignMissing).withFix .fix (.insertion entered.stop "=")]

def reportValueMissing : InterruptionReport := fun _ cause => [.error cause.span .valueMissing]

def checkContainer : NodeCheck := fun ctx node =>
  if (resolve? ctx.schema.containers (ctx.document.textOf node)).isNone then
    [.warning node.span .containerUnknown]
  else []

def checkKey : NodeCheck := fun ctx node =>
  if (resolve? ctx.schema.keys (ctx.document.textOf node)).isNone then
    [.warning node.span .keyUnknown]
  else []

/-- The rule for the values of a key. -/
def ruleOf? (schema : Schema) (key : String) : Option Rule :=
  (resolve? schema.keys key).bind (·.entry.info.rule)

def checkValue : NodeCheck := fun ctx node =>
  match node.keyOfValue? with
  | none => []
  | some key =>
    match ruleOf? ctx.schema (ctx.document.textOf key) with
    | none => []
    | some rule => rule.check (trimmed (ctx.document.textOf node)) key.span node.span

/-- The rows for the language, in the order in which they are tried. -/
def table : List Row :=
  [{ source := none, triggers := [.containerStart], target := .containerStart,
     leave := [.containerName],
     onEnter := none, onLeave := none, onError := some reportContainerNameMissing },
   { source := some .containerStart, triggers := [.containerName], target := .containerName,
     leave := [.containerEnd],
     onEnter := some checkContainer, onLeave := none, onError := some reportContainerEndMissing },
   { source := some .containerName, triggers := [.containerEnd], target := .containerEnd,
     leave := [],
     onEnter := none, onLeave := none, onError := none },
   { source := none, triggers := [.keyName], target := .keyName,
     leave := [.assign],
     onEnter := some checkKey, onLeave := none, onError := some reportAssignMissing },
   { source := some .keyName, triggers := [.assign], target := .assign,
     leave := Kind.literals,
     onEnter := none, onLeave := none, onError := some reportValueMissing },
   { source := some .assign, triggers := Kind.literals, target := .value,
     leave := [],
     onEnter := some checkValue, onLeave := none, onError := none }]

end Keyfile.Adjacency

namespace Keyfile

/-- All diagnostics of a document. -/
def diagnose (schema : Schema) (d : Document) : List Diagnostic :=
  ((Adjacency.Machine.start Adjacency.table).run schema d).diagnostics

end Keyfile
