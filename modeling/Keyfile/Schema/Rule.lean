import Keyfile.Text.Blank
import Keyfile.Text.Integer
import Keyfile.Text.Pieces

/-! Rules for the values that may be assigned to a key. -/
namespace Keyfile

/-- The type a value is meant to have. -/
inductive ValueType where
  | array
  | string
  | float
  | int
  | bool
  /-- A type known to the application only; it is never checked. -/
  | custom (name : String)
  deriving DecidableEq, Repr

namespace ValueType

def name : ValueType → String
  | .array => "array"
  | .string => "string"
  | .float => "float"
  | .int => "int"
  | .bool => "bool"
  | .custom name => name

def ofName : String → ValueType
  | "array" => .array
  | "string" => .string
  | "float" => .float
  | "int" => .int
  | "bool" => .bool
  | other => .custom other

@[simp] theorem name_ofName (s : String) : (ofName s).name = s := by
  unfold ofName
  split <;> rfl

end ValueType

/-- Which values a key takes. -/
inductive Condition where
  /-- One of the listed values. -/
  | oneOf (values : List String)
  /-- An integer within the bounds, both included. -/
  | between (low high : Int)
  /-- A condition that cannot be read restricts nothing. -/
  | unsupported
  deriving DecidableEq, Repr

/-- The bounds of a range: those of the listed items that are integers, when there are exactly two. -/
def Condition.ofBounds (items : List (List Char)) : Condition :=
  match items.filterMap fun item => Text.int64? (Text.trim item) with
  | [low, high] => .between low high
  | _ => .unsupported

/-- Reads `in:a,b,c` and `between:low,high`. -/
def Condition.read (raw : String) : Condition :=
  match Text.after? "in:".toList raw.toList with
  | some rest => .oneOf ((Text.pieces ',' rest).map String.ofList)
  | none =>
    match Text.after? "between:".toList raw.toList with
    | some rest => .ofBounds (Text.pieces ',' rest)
    | none => .unsupported

/-- What is known of the values of a key; every part may be left out. -/
structure Rule where
  valueType : Option ValueType
  /-- The value that holds when the key is not set. -/
  defaultValue : Option String
  /-- Sample values, separated by commas. -/
  samples : Option String
  /-- The condition as it was written. -/
  conditionText : Option String
  deriving DecidableEq, Repr

namespace Rule

/-- The rule that says nothing. -/
def empty : Rule := ⟨none, none, none, none⟩

instance : Inhabited Rule := ⟨empty⟩

def condition? (r : Rule) : Option Condition := r.conditionText.map Condition.read

def sampleValues (r : Rule) : List String :=
  match r.samples with
  | none => []
  | some list => splitString ',' list

end Rule
end Keyfile
