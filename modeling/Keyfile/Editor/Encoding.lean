import Keyfile.Data.Basic
import Keyfile.Editor.View

/-! Editor results as data, in the form of the Language Server Protocol. -/
namespace Keyfile

def Position.toData (p : Position) : Data := .object [("line", .nat p.line), ("character", .nat p.column)]

def Range.toData (r : Range) : Data := .object [("start", r.start.toData), ("end", r.stop.toData)]

/-- The number of a severity in the protocol. -/
def Severity.number : Severity → Nat
  | .error => 1
  | .warning => 2
  | .hint => 4

/-- The number of the item kind that presents an option. -/
def OptionKind.number : OptionKind → Nat
  | .constant => 21
  | .type => 10
  | .wildcard => 6
  | .choice => 20
  | .text => 1

namespace Editor

/-- A replacement of a range by a text. -/
def replacement (range : Range) (newText : String) : Data :=
  .object [("range", range.toData), ("newText", .text newText)]

def Report.toData (r : Report) : Data :=
  .object
    [("range", r.range.toData), ("severity", .nat r.severity.number), ("code", .text r.code),
     ("source", .text r.source), ("message", .text r.message)]

/-- A quick fix changes one document, of whatever version. -/
def Action.toData (a : Action) : Data :=
  .object
    [("title", .text a.title), ("kind", .text "quickfix"), ("diagnostics", .list [a.report.toData]),
     ("edit", .object
       [("documentChanges", .list
         [.object
           [("textDocument", .object [("uri", .text a.uri), ("version", .null)]),
            ("edits", .list [replacement a.range a.newText])]])]),
     ("isPreferred", .bool a.preferred)]

def Item.toData (i : Item) : Data :=
  .object
    ([("label", .text i.label), ("kind", .nat i.kind.number)]
      ++ Data.optional "detail" (i.detail.map .text)
      ++ [("sortText", .text i.sortText), ("textEdit", replacement i.range i.label)])

def Note.toData (n : Note) : Data :=
  .object
    [("contents", .object [("kind", .text "markdown"), ("value", .text n.markdown)]),
     ("range", n.range.toData)]

end Editor
end Keyfile
