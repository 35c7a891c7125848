/-! Structured data as it is read from files and written to them. -/
namespace Keyfile

/-- A piece of structured data. -/
inductive Data where
  | null
  | bool (value : Bool)
  /-- An integer of at most 64 bits, with or without sign. -/
  | int (value : Int)
  /-- Any other number, as it was written. -/
  | real (written : String)
  | text (content : String)
  /-- A string literal whose escapes leave a surrogate unpaired, so that it is no text. -/
  | garbled
  | list (items : List Data)
  /-- Named fields in the order they were written; a garbled name is `none`. -/
  | record (fields : List (Option String × Data))
  deriving Inhabited

namespace Data

/-- A record of fields with proper names. -/
def object (fields : List (String × Data)) : Data := .record (fields.map fun (name, d) => (some name, d))

def nat (n : Nat) : Data := .int n

/-- A field that is left out when there is nothing to say. -/
def optional (name : String) (value : Option Data) : List (String × Data) :=
  match value with
  | none => []
  | some d => [(name, d)]

/-- The data, or null. -/
def orNull (value : Option Data) : Data := value.getD .null

end Data
end Keyfile
