import Keyfile.Document.Tree

/-! Assignments found by the neighbours of a node. -/
namespace Keyfile.Cursor

/-- The neighbour to the left, if it has a certain kind. -/
def prevOfKind? (node : Cursor) (kind : Kind) : Option Cursor := node.prev?.filter (·.kind == kind)

/-- The key that a node is the value of: it stands before the equals sign before the node. -/
def keyOfValue? (node : Cursor) : Option Cursor :=
  (node.prevOfKind? .assign).bind (·.prevOfKind? .keyName)

end Keyfile.Cursor
