import Keyfile.Data.Json.Printer
import Keyfile.Data.Json.Reader
import Keyfile.Data.Shape
import Keyfile.Schema.Entry

/-! Schemas and rules as data, in both directions. -/
namespace Keyfile

namespace KeyRole

def name : KeyRole → String
  | .group => "namespace"
  | .value => "value"
  | .wildcard => "variable"

def ofName? : String → Option KeyRole
  | "namespace" => some .group
  | "value" => some .value
  | "variable" => some .wildcard
  | _ => none

@[simp] theorem ofName?_name (r : KeyRole) : ofName? r.name = some r := by cases r <;> rfl

end KeyRole

namespace Rule

def toData (r : Rule) : Data :=
  .object
    (Data.optional "type" (r.valueType.map fun t => .text t.name)
      ++ Data.optional "default" (r.defaultValue.map .text)
      ++ Data.optional "example" (r.samples.map .text)
      ++ Data.optional "condition" (r.conditionText.map .text))

def fieldNames : List String := ["type", "default", "example", "condition"]

def ofData? (d : Data) : Option Rule :=
  match Shape.fields? fieldNames d with
  | some [valueType, defaultValue, samples, condition] => do
    let valueType ← Shape.orDefault none (Shape.nullable Shape.text?) valueType
    let defaultValue ← Shape.orDefault none (Shape.nullable Shape.text?) defaultValue
    let samples ← Shape.orDefault none (Shape.nullable Shape.text?) samples
    let condition ← Shape.orDefault none (Shape.nullable Shape.text?) condition
    some ⟨valueType.map ValueType.ofName, defaultValue, samples, condition⟩
  | _ => none

end Rule

/-- What a key entry has beyond its name and title. -/
def KeyInfo.fields (i : KeyInfo) : List (String × Data) :=
  ("type", .text i.role.name) :: Data.optional "assign" (i.rule.map Rule.toData)

mutual
/-- An entry as data, given the fields that its own kind of entry adds. -/
def Entry.toData {ι : Type} (extra : ι → List (String × Data)) : Entry ι → Data
  | ⟨value, title, info, children⟩ =>
    .object (("value", .text value) :: ("title", .text title) :: extra info
      ++ Entry.levelFields extra children)
def Entry.levelFields {ι : Type} (extra : ι → List (String × Data)) :
    Option (List (Entry ι)) → List (String × Data)
  | none => []
  | some entries => [("suggestions", .list (Entry.toDataAll extra entries))]
def Entry.toDataAll {ι : Type} (extra : ι → List (String × Data)) : List (Entry ι) → List Data
  | [] => []
  | e :: es => e.toData extra :: Entry.toDataAll extra es
end

def ContainerEntry.toData (e : ContainerEntry) : Data := Entry.toData (fun _ => []) e

def KeyEntry.toData (e : KeyEntry) : Data := Entry.toData KeyInfo.fields e

namespace ContainerEntry

def fieldNames : List String := ["value", "title", "suggestions"]

/-- A container entry, given how its children are read. -/
def shape? (children? : Data → Option (List ContainerEntry)) (d : Data) : Option ContainerEntry :=
  match Shape.fields? fieldNames d with
  | some [value, title, children] => do
    let value ← Shape.required Shape.text? value
    let title ← Shape.orDefault "" Shape.text? title
    let children ← Shape.orDefault none (Shape.nullable children?) children
    some ⟨value, title, (), children⟩
  | _ => none

/-- A container entry nested no deeper than so many levels. -/
def ofData? : Nat → Data → Option ContainerEntry
  | 0, _ => none
  | 1, d => shape? (fun _ => none) d
  | levels + 2, d => shape? (Shape.listOf? (ofData? levels)) d

end ContainerEntry

namespace KeyEntry

def fieldNames : List String := ["value", "title", "type", "assign", "suggestions"]

/-- A key entry, given the levels left below it and how its children are read. -/
def shape? (levels : Nat) (children? : Data → Option (List KeyEntry)) (d : Data) : Option KeyEntry :=
  match Shape.fields? fieldNames d with
  | some [value, title, role, rule, children] => do
    let value ← Shape.required Shape.text? value
    let title ← Shape.orDefault "" Shape.text? title
    let role ← Shape.orDefault .value
      (Shape.within levels fun d => (Shape.choiceName? d).bind KeyRole.ofName?) role
    let rule ← Shape.orDefault none (Shape.nullable (Shape.within levels Rule.ofData?)) rule
    let children ← Shape.orDefault none (Shape.nullable children?) children
    some ⟨value, title, ⟨role, rule⟩, children⟩
  | _ => none

/-- A key entry nested no deeper than so many levels. -/
def ofData? : Nat → Data → Option KeyEntry
  | 0, _ => none
  | 1, d => shape? 0 (fun _ => none) d
  | levels + 2, d => shape? (levels + 1) (Shape.listOf? (ofData? levels)) d

end KeyEntry

namespace Schema

def toData (s : Schema) : Data :=
  .object
    [("containers", .list (s.containers.map ContainerEntry.toData)),
     ("keys", .list (s.keys.map KeyEntry.toData))]

/-- The deepest nesting of lists and records that a schema may be written with. -/
def maxNesting : Nat := 127

/-- The schema itself and each of its two lists take a level of nesting. -/
def ofData? (d : Data) : Option Schema :=
  match Shape.fields? ["containers", "keys"] d with
  | some [containers, keys] => do
    let containers ← Shape.orDefault [] (Shape.listOf? (ContainerEntry.ofData? (maxNesting - 2))) containers
    let keys ← Shape.orDefault [] (Shape.listOf? (KeyEntry.ofData? (maxNesting - 2))) keys
    some ⟨containers, keys⟩
  | _ => none

def toJson (s : Schema) : String := Json.compact s.toData

def ofJson? (text : String) : Option Schema := (Json.read? text).bind ofData?

end Schema
end Keyfile
