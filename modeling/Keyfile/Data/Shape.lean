import Keyfile.Data.Basic
import Keyfile.Text.Integer

/-! How typed values are read from data. A structure is written as a record or as the list of its
fields in order. Fields that are not declared are ignored, and a declared one stands at most once. -/
namespace Keyfile.Shape

/-- The content of a field by its name: nothing when it is left out, and no reading at all when it
stands twice. -/
def fieldNamed? (fields : List (Option String × Data)) (name : String) : Option (Option Data) :=
  match fields.filter fun f => f.1 == some name with
  | [] => some none
  | [f] => some (some f.2)
  | _ => none

/-- The contents of the declared fields of a structure, each with nothing where it is left out. -/
def fields? (names : List String) : Data → Option (List (Option Data))
  | .record fields =>
    if fields.all (·.1.isSome) then names.mapM (fieldNamed? fields) else none
  | .list items =>
    if items.length ≤ names.length then
      some (items.map some ++ List.replicate (names.length - items.length) none)
    else none
  | _ => none

/-- A field that must be there. -/
def required {α : Type} (read : Data → Option α) (field : Option Data) : Option α := field.bind read

/-- A field that may be left out. -/
def orDefault {α : Type} (otherwise : α) (read : Data → Option α) : Option Data → Option α
  | none => some otherwise
  | some d => read d

/-- A value or null. -/
def nullable {α : Type} (read : Data → Option α) : Data → Option (Option α)
  | .null => some none
  | d => (read d).map some

def text? : Data → Option String
  | .text s => some s
  | _ => none

def flag? : Data → Option Bool
  | .bool b => some b
  | _ => none

def int64? : Data → Option Int
  | .int n => Text.asInt64 n
  | _ => none

/-- An offset: an integer of 64 bits without sign. -/
def word? : Data → Option Nat
  | .int (.ofNat n) => if n < 0x10000000000000000 then some n else none
  | _ => none

def listOf? {α : Type} (read : Data → Option α) : Data → Option (List α)
  | .list items => items.mapM read
  | _ => none

/-- The name of a choice, written as a text or as a record that gives it nothing. -/
def choiceName? : Data → Option String
  | .text s => some s
  | .record [(some s, .null)] => some s
  | _ => none

def isNested : Data → Bool
  | .list _ => true
  | .record _ => true
  | _ => false

/-- Refuses lists and records when no level of nesting is left. -/
def within {α : Type} (levels : Nat) (read : Data → Option α) (d : Data) : Option α :=
  if levels = 0 ∧ isNested d then none else read d

end Keyfile.Shape
