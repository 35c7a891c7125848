import Keyfile.Completion.Plan
import Keyfile.Data.Shape
import Keyfile.Hover

/-! Results of completion and hover as data, in both directions. -/
namespace Keyfile

def OptionKind.ofName? : String → Option OptionKind
  | "constant" => some .constant
  | "type" => some .type
  | "variable" => some .wildcard
  | "enum" => some .choice
  | "text" => some .text
  | _ => none

namespace CompletionOption

def toData (o : CompletionOption) : Data :=
  .object
    (("label", .text o.label) :: Data.optional "detail" (o.detail.map .text)
      ++ [("kind", .text o.kind.name)])

def ofData? (d : Data) : Option CompletionOption :=
  match Shape.fields? ["label", "detail", "kind"] d with
  | some [label, detail, kind] => do
    let label ← Shape.required Shape.text? label
    let detail ← Shape.orDefault none (Shape.nullable Shape.text?) detail
    let kind ← Shape.required (fun d => (Shape.choiceName? d).bind OptionKind.ofName?) kind
    some ⟨label, detail, kind⟩
  | _ => none

end CompletionOption

namespace Completion

def toData (c : Completion) : Data :=
  .object
    (("from", .nat c.start) :: Data.optional "to" (c.stop.map .nat)
      ++ [("options", .list (c.options.map CompletionOption.toData))])

def ofData? (d : Data) : Option Completion :=
  match Shape.fields? ["from", "to", "options"] d with
  | some [start, stop, options] => do
    let start ← Shape.required Shape.word? start
    let stop ← Shape.orDefault none (Shape.nullable Shape.word?) stop
    let options ← Shape.required (Shape.listOf? CompletionOption.ofData?) options
    some ⟨start, stop, options⟩
  | _ => none

end Completion

namespace HoverInfo

def toData (h : HoverInfo) : Data :=
  .object [("from", .nat h.start), ("to", .nat h.stop), ("titles", .list (h.titles.map .text))]

def ofData? (d : Data) : Option HoverInfo :=
  match Shape.fields? ["from", "to", "titles"] d with
  | some [start, stop, titles] => do
    let start ← Shape.required Shape.word? start
    let stop ← Shape.required Shape.word? stop
    let titles ← Shape.required (Shape.listOf? Shape.text?) titles
    some ⟨start, stop, titles⟩
  | _ => none

end HoverInfo
end Keyfile
