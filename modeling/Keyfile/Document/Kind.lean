/-! Classes of the nodes of a document. -/
namespace Keyfile

/-- What a node of a document stands for. -/
inductive Kind where
  /-- The whole text. -/
  | document
  /-- An opening bracket. -/
  | containerStart
  /-- A dotted container name. -/
  | containerName
  /-- A closing bracket. -/
  | containerEnd
  /-- A dotted key on the left of an assignment. -/
  | keyName
  /-- An equals sign. -/
  | assign
  | string
  | number
  | boolean
  | lineBreak
  /-- A comment up to the end of its line. -/
  | comment
  /-- Text that fits nowhere. -/
  | unclassified
  deriving DecidableEq, Repr, Inhabited

namespace Kind

/-- The kinds that may stand on the right of an equals sign. -/
def literals : List Kind := [.string, .number, .boolean]

def isLiteral (k : Kind) : Bool := literals.contains k

/-- The tag that names a kind. -/
def tag : Kind → String
  | .document => "Document"
  | .containerStart => "ContainerStart"
  | .containerName => "ContainerIdentifier"
  | .containerEnd => "ContainerEnd"
  | .keyName => "ValueIdentifier"
  | .assign => "Assign"
  | .string => "String"
  | .number => "Number"
  | .boolean => "Boolean"
  | .lineBreak => "NewLine"
  | .comment => "Comment"
  | .unclassified => "Error"

/-- The kind that a tag names; a warning sign is a second tag for unclassified text. -/
def ofTag? : String → Option Kind
  | "Document" => some .document
  | "ContainerStart" => some .containerStart
  | "ContainerIdentifier" => some .containerName
  | "ContainerEnd" => some .containerEnd
  | "ValueIdentifier" => some .keyName
  | "Assign" => some .assign
  | "String" => some .string
  | "Number" => some .number
  | "Boolean" => some .boolean
  | "NewLine" => some .lineBreak
  | "Comment" => some .comment
  | "Error" => some .unclassified
  | "⚠" => some .unclassified
  | _ => none

/-- What is said about a tag that names no kind. -/
def unknownTagMessage (tag : String) : String := "unknown node kind '" ++ tag ++ "'"

@[simp] theorem ofTag?_tag (k : Kind) : ofTag? k.tag = some k := by cases k <;> rfl

end Kind
end Keyfile
