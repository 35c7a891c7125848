import Keyfile.Document.Kind
import Keyfile.Document.Span

/-! Documents as trees of classified nodes. A `Cursor` is a node together with its surroundings, so
that neighbours and enclosing nodes can be reached from it. -/
namespace Keyfile

/-- A classified range of the text, with the nodes inside it. -/
structure Node where
  kind : Kind
  span : Span
  children : List Node
  deriving Inhabited

/-- A text with its top-level nodes. -/
structure Document where
  text : String
  content : List Node
  deriving Inhabited

namespace Document

/-- Length of the text in bytes. -/
def size (d : Document) : Nat := Text.bytes d.text.toList

/-- The node that spans the whole text. -/
def root (d : Document) : Node := ⟨.document, ⟨0, d.size⟩, d.content⟩

/-- The part of the text that a range covers; empty when the range is no part of the text. -/
def slice (d : Document) (s : Span) : String :=
  String.ofList ((s.slice? d.text.toList).getD [])

end Document

/-- An enclosing node seen from inside: its own class and range, and its siblings on both sides, the
nearest first on the left. -/
structure Frame where
  kind : Kind
  span : Span
  before : List Node
  after : List Node
  deriving Inhabited

/-- A node in its place: the siblings to its left, nearest first, those to its right, and the
enclosing nodes, innermost first. -/
structure Cursor where
  node : Node
  before : List Node
  after : List Node
  above : List Frame
  deriving Inhabited

mutual
/-- Number of nodes of a tree. -/
def Node.size : Node → Nat
  | ⟨_, _, children⟩ => Node.sizes children + 1
def Node.sizes : List Node → Nat
  | [] => 0
  | n :: ns => n.size + Node.sizes ns
end

mutual
/-- A node and all nodes inside it, each in its place, in document order. -/
def Node.visit (above : List Frame) (before after : List Node) : Node → List Cursor
  | ⟨kind, span, children⟩ =>
    ⟨⟨kind, span, children⟩, before, after, above⟩ ::
      Node.visitAll (⟨kind, span, before, after⟩ :: above) [] children
def Node.visitAll (above : List Frame) (before : List Node) : List Node → List Cursor
  | [] => []
  | n :: ns => n.visit above before ns ++ Node.visitAll above (n :: before) ns
end

/-- Nodes on one level, each in its place. -/
def Cursor.level (above : List Frame) (before : List Node) : List Node → List Cursor
  | [] => []
  | n :: ns => ⟨n, before, ns, above⟩ :: Cursor.level above (n :: before) ns

namespace Cursor

def kind (c : Cursor) : Kind := c.node.kind
def span (c : Cursor) : Span := c.node.span

/-- The node as an enclosing one. -/
def frame (c : Cursor) : Frame := ⟨c.node.kind, c.node.span, c.before, c.after⟩

def children (c : Cursor) : List Cursor := level (c.frame :: c.above) [] c.node.children

def firstChild? (c : Cursor) : Option Cursor := c.children.head?

def prev? (c : Cursor) : Option Cursor :=
  match c.before with
  | [] => none
  | n :: ns => some ⟨n, ns, c.node :: c.after, c.above⟩

def next? (c : Cursor) : Option Cursor :=
  match c.after with
  | [] => none
  | n :: ns => some ⟨n, c.node :: c.before, ns, c.above⟩

def parent? (c : Cursor) : Option Cursor :=
  match c.above with
  | [] => none
  | f :: fs => some ⟨⟨f.kind, f.span, c.before.reverse ++ c.node :: c.after⟩, f.before, f.after, fs⟩

/-- Nodes that come earlier in document order than one with these surroundings. -/
def precedingCount : List Frame → List Node → Nat
  | [], before => Node.sizes before
  | f :: fs, before => precedingCount fs f.before + 1 + Node.sizes before

/-- Position of the node in document order; the root has position zero. -/
def position (c : Cursor) : Nat := precedingCount c.above c.before

end Cursor

namespace Document

def rootCursor (d : Document) : Cursor := ⟨d.root, [], [], []⟩

/-- All nodes in document order, the root first. -/
def cursors (d : Document) : List Cursor := d.root.visit [] [] []

/-- The text of a node. -/
def textOf (d : Document) (c : Cursor) : String := d.slice c.span

end Document
end Keyfile
