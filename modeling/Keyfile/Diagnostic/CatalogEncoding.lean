import Keyfile.Data.Shape
import Keyfile.Data.Toml.Reader
import Keyfile.Diagnostic.Catalog

/-! Message catalogs as data. Texts that a catalog leaves out stay English. -/
namespace Keyfile

namespace ContainerTexts

def ofData? (base : ContainerTexts) (d : Data) : Option ContainerTexts :=
  match Shape.fields? ["identifier", "unknown", "end"] d with
  | some [identifier, unknown, closing] => do
    let identifier ← Shape.orDefault base.identifier Shape.text? identifier
    let unknown ← Shape.orDefault base.unknown Shape.text? unknown
    let closing ← Shape.orDefault base.closing Shape.text? closing
    some ⟨identifier, unknown, closing⟩
  | _ => none

def toData (t : ContainerTexts) : Data :=
  .object [("identifier", .text t.identifier), ("unknown", .text t.unknown), ("end", .text t.closing)]

end ContainerTexts

namespace ValueTexts

def fieldNames : List String :=
  ["default", "unknown", "assign", "missing", "enum", "range", "float", "int", "bool"]

def ofData? (base : ValueTexts) (d : Data) : Option ValueTexts :=
  match Shape.fields? fieldNames d with
  | some [default, unknown, assign, missing, choice, range, float, int, bool] => do
    let default ← Shape.orDefault base.default Shape.text? default
    let unknown ← Shape.orDefault base.unknown Shape.text? unknown
    let assign ← Shape.orDefault base.assign Shape.text? assign
    let missing ← Shape.orDefault base.missing Shape.text? missing
    let choice ← Shape.orDefault base.choice Shape.text? choice
    let range ← Shape.orDefault base.range Shape.text? range
    let float ← Shape.orDefault base.float Shape.text? float
    let int ← Shape.orDefault base.int Shape.text? int
    let bool ← Shape.orDefault base.bool Shape.text? bool
    some ⟨default, unknown, assign, missing, choice, range, float, int, bool⟩
  | _ => none

def toData (t : ValueTexts) : Data :=
  .object
    [("default", .text t.default), ("unknown", .text t.unknown), ("assign", .text t.assign),
     ("missing", .text t.missing), ("enum", .text t.choice), ("range", .text t.range),
     ("float", .text t.float), ("int", .text t.int), ("bool", .text t.bool)]

end ValueTexts

namespace Catalog

/-- The texts of a catalog, which stand in its table `lint`. -/
def lintOfData? (base : Catalog) (d : Data) : Option Catalog :=
  match Shape.fields? ["fix", "remove", "container", "value"] d with
  | some [fix, remove, container, value] => do
    let fix ← Shape.orDefault base.fix Shape.text? fix
    let remove ← Shape.orDefault base.remove Shape.text? remove
    let container ← Shape.orDefault base.container (ContainerTexts.ofData? base.container) container
    let value ← Shape.orDefault base.value (ValueTexts.ofData? base.value) value
    some ⟨fix, remove, container, value⟩
  | _ => none

def ofData? (d : Data) : Option Catalog :=
  match Shape.fields? ["lint"] d with
  | some [lint] => Shape.orDefault english (lintOfData? english) lint
  | _ => none

def toData (c : Catalog) : Data :=
  .object
    [("lint", .object
      [("fix", .text c.fix), ("remove", .text c.remove), ("container", c.container.toData),
       ("value", c.value.toData)])]

def ofToml? (text : String) : Option Catalog := (Toml.read? text).bind ofData?

end Catalog

end Keyfile
