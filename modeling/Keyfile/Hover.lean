import Keyfile.Document.Seek
import Keyfile.Schema.Lookup

/-! Titles of the names under a pointer. -/
namespace Keyfile

/-- The titles along a dotted name, outermost first, with the range from its start to the end of the
segment under the pointer. -/
structure HoverInfo where
  start : Nat
  stop : Nat
  titles : List String
  deriving DecidableEq, Repr, Inhabited

def Kind.isName : Kind → Bool
  | .containerName => true
  | .keyName => true
  | _ => false

/-- A name up to the end of the segment that its `cursor`-th byte is in. -/
def throughSegment? (name : List Char) (cursor : Nat) : Option (List Char) :=
  (Text.cut? name cursor).map fun (front, back) => front ++ back.takeWhile (· != '.')

def titles {ι : Type} [HasWildcards ι] (roots : List (Entry ι)) (path : String) : List String :=
  (trail .longest roots path).map (·.title)

/-- Hover on a node with the pointer at an offset. Titles found before a name stops being known are
kept; without any there is nothing to show. -/
def hoverOn (schema : Schema) (d : Document) (node : Cursor) (offset : Nat) : Option HoverInfo :=
  if offset < node.span.start then none
  else
    (throughSegment? (d.textOf node).toList (offset - node.span.start)).bind fun path =>
      let found := match node.kind with
        | .containerName => titles schema.containers (String.ofList path)
        | .keyName => titles schema.keys (String.ofList path)
        | _ => []
      if found.isEmpty then none
      else some ⟨node.span.start, node.span.start + Text.bytes path, found⟩

/-- Hover at an offset: on the name that starts there or goes on there, or else on the node that ends
there. -/
def hoverAt (schema : Schema) (d : Document) (offset : Nat) : Option HoverInfo :=
  let node := d.innermost offset .after
  hoverOn schema d (if node.kind.isName then node else d.innermost offset .before) offset

end Keyfile
