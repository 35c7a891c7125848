import Keyfile.Document.Tree

/-! The innermost node around an offset. -/
namespace Keyfile

/-- Which neighbour an offset between two nodes belongs to. -/
inductive Bias where
  /-- The node that ends there, as for a typing position. -/
  | before
  /-- The node that starts there, as for a pointer. -/
  | after
  deriving DecidableEq, Repr

/-- Whether a range counts as around an offset. -/
def Span.covers (s : Span) (offset : Nat) : Bias → Bool
  | .before => s.start < offset && offset ≤ s.stop
  | .after => s.start ≤ offset && offset < s.stop

mutual
/-- Descends into the first child that qualifies, as long as there is one. -/
def Node.seek (covers : Span → Bool) (above : List Frame) (before after : List Node) : Node → Cursor
  | ⟨kind, span, children⟩ =>
    (Node.seekIn covers (⟨kind, span, before, after⟩ :: above) [] children).getD
      ⟨⟨kind, span, children⟩, before, after, above⟩
def Node.seekIn (covers : Span → Bool) (above : List Frame) (before : List Node) :
    List Node → Option Cursor
  | [] => none
  | n :: ns =>
    if covers n.span then some (n.seek covers above before ns)
    else Node.seekIn covers above (n :: before) ns
end

/-- The innermost node around an offset, the root when no other is. -/
def Document.innermost (d : Document) (offset : Nat) (bias : Bias) : Cursor :=
  d.root.seek (·.covers offset bias) [] [] []

end Keyfile
