import Keyfile.Data.Shape
import Keyfile.Diagnostic.Catalog

/-! Diagnostics as data, in both directions. -/
namespace Keyfile

namespace Span

def fields (s : Span) : List (String × Data) := [("from", .nat s.start), ("to", .nat s.stop)]

def toData (s : Span) : Data := .object s.fields

def ofData? (d : Data) : Option Span :=
  match Shape.fields? ["from", "to"] d with
  | some [start, stop] => do
    let start ← Shape.required Shape.word? start
    let stop ← Shape.required Shape.word? stop
    some ⟨start, stop⟩
  | _ => none

end Span

namespace TextEdit

def toData (e : TextEdit) : Data := .object [("span", e.span.toData), ("insert", .text e.insert)]

def ofData? (d : Data) : Option TextEdit :=
  match Shape.fields? ["span", "insert"] d with
  | some [span, insert] => do
    let span ← Shape.required Span.ofData? span
    let insert ← Shape.required Shape.text? insert
    some ⟨span, insert⟩
  | _ => none

end TextEdit

namespace FixLabel

def name : FixLabel → String
  | .fix => "fix"
  | .remove => "remove"

def ofName? : String → Option FixLabel
  | "fix" => some .fix
  | "remove" => some .remove
  | _ => none

end FixLabel

namespace Fix

def toData (f : Fix) : Data := .object [("label", .text f.label.name), ("edit", f.edit.toData)]

def ofData? (d : Data) : Option Fix :=
  match Shape.fields? ["label", "edit"] d with
  | some [label, edit] => do
    let label ← Shape.required (fun d => (Shape.choiceName? d).bind FixLabel.ofName?) label
    let edit ← Shape.required TextEdit.ofData? edit
    some ⟨label, edit⟩
  | _ => none

end Fix

def Severity.ofName? : String → Option Severity
  | "hint" => some .hint
  | "warning" => some .warning
  | "error" => some .error
  | _ => none

namespace Message

def name : Message → String
  | .containerNameMissing => "container-identifier-missing"
  | .containerUnknown => "container-unknown"
  | .containerEndMissing => "container-end-missing"
  | .keyUnknown => "value-unknown"
  | .assignMissing => "assign-missing"
  | .valueMissing => "value-missing"
  | .defaultValue => "default-value"
  | .invalidChoice => "invalid-enum"
  | .outOfRange _ _ => "out-of-range"
  | .notFloat => "not-float"
  | .notInt => "not-int"
  | .notBool => "not-bool"

/-- The message of a name that needs no further fields. -/
def ofName? : String → Option Message
  | "container-identifier-missing" => some .containerNameMissing
  | "container-unknown" => some .containerUnknown
  | "container-end-missing" => some .containerEndMissing
  | "value-unknown" => some .keyUnknown
  | "assign-missing" => some .assignMissing
  | "value-missing" => some .valueMissing
  | "default-value" => some .defaultValue
  | "invalid-enum" => some .invalidChoice
  | "not-float" => some .notFloat
  | "not-int" => some .notInt
  | "not-bool" => some .notBool
  | _ => none

def toData (m : Message) : Data :=
  .object <| ("kind", .text m.name) ::
    match m with
    | .outOfRange low high => [("lo", .int low), ("hi", .int high)]
    | _ => []

/-- The message of a name, given the bounds that stand with it. -/
def ofFields? (kind low high : Option Data) : Option Message := do
  let name ← Shape.required Shape.text? kind
  if name = "out-of-range" then
    let low ← Shape.required Shape.int64? low
    let high ← Shape.required Shape.int64? high
    some (.outOfRange low high)
  else ofName? name

/-- The kind of a message stands first in a list. There nothing may follow that the kind does not
ask for. -/
def ofData? : Data → Option Message
  | .record fields =>
    match Shape.fields? ["kind", "lo", "hi"] (.record fields) with
    | some [kind, low, high] => ofFields? kind low high
    | _ => none
  | .list [.text name] => ofName? name
  | .list [kind, low, high] =>
    match ofFields? (some kind) (some low) (some high) with
    | some (.outOfRange low high) => some (.outOfRange low high)
    | _ => none
  | _ => none

end Message

/-- The field for fixes, which is left out when there are none. -/
def fixesField (fixes : List Data) : List (String × Data) :=
  if fixes.isEmpty then [] else [("fixes", .list fixes)]

namespace Diagnostic

def fields (d : Diagnostic) : List (String × Data) :=
  d.span.fields ++ [("severity", .text d.severity.name), ("message", d.message.toData)]
    ++ fixesField (d.fixes.map Fix.toData)

def toData (d : Diagnostic) : Data := .object d.fields

def ofData? (d : Data) : Option Diagnostic :=
  match Shape.fields? ["from", "to", "severity", "message", "fixes"] d with
  | some [start, stop, severity, message, fixes] => do
    let start ← Shape.required Shape.word? start
    let stop ← Shape.required Shape.word? stop
    let severity ← Shape.required (fun d => (Shape.choiceName? d).bind Severity.ofName?) severity
    let message ← Shape.required Message.ofData? message
    let fixes ← Shape.orDefault [] (Shape.listOf? Fix.ofData?) fixes
    some ⟨⟨start, stop⟩, severity, message, fixes⟩
  | _ => none

end Diagnostic

def RenderedFix.toData (f : RenderedFix) : Data :=
  .object [("label", .text f.label), ("edit", f.edit.toData)]

def RenderedDiagnostic.toData (d : RenderedDiagnostic) : Data :=
  .object
    (d.span.fields ++ [("severity", .text d.severity.name), ("code", .text d.code),
      ("message", .text d.message)] ++ fixesField (d.fixes.map RenderedFix.toData))

end Keyfile
