import Keyfile.Document.Tree

/-! Trees put together step by step in document order. -/
namespace Keyfile

/-- One step of building a tree. -/
inductive BuildStep where
  /-- Add a node without children to the innermost open node. -/
  | leaf (kind : Kind) (span : Span)
  /-- Open a node; what follows goes inside it. -/
  | enter (kind : Kind) (start : Nat)
  /-- Close the innermost open node. -/
  | exit (stop : Nat)
  deriving DecidableEq, Repr

/-- A node still open: what is inside it so far, the latest first. -/
structure OpenNode where
  kind : Kind
  start : Nat
  inside : List Node
  deriving Inhabited

/-- A tree under construction: the finished top-level nodes, the latest first, and the open nodes, the
innermost first. -/
structure Builder where
  text : String
  top : List Node
  pending : List OpenNode
  deriving Inhabited

namespace Builder

def start (text : String) : Builder := ⟨text, [], []⟩

/-- Puts a finished node into the innermost open one. -/
def attach (b : Builder) (n : Node) : Builder :=
  match b.pending with
  | [] => { b with top := n :: b.top }
  | o :: os => { b with pending := { o with inside := n :: o.inside } :: os }

/-- Closes the innermost open node. Without one nothing happens: the root stays open to the end. -/
def close (b : Builder) (stop : Nat) : Builder :=
  match b.pending with
  | [] => b
  | o :: os => { b with pending := os }.attach ⟨o.kind, ⟨o.start, stop⟩, o.inside.reverse⟩

def step (b : Builder) : BuildStep → Builder
  | .leaf kind span => b.attach ⟨kind, span, []⟩
  | .enter kind start => { b with pending := ⟨kind, start, []⟩ :: b.pending }
  | .exit stop => b.close stop

/-- Closes every open node at `stop`. -/
def closeAll (b : Builder) (stop : Nat) : Builder := b.pending.foldl (fun acc _ => acc.close stop) b

/-- The finished document: nodes left open end with the text. -/
def finish (b : Builder) : Document := ⟨b.text, (b.closeAll (Text.bytes b.text.toList)).top.reverse⟩

end Builder

/-- The document that a list of steps builds over a text. -/
def Document.build (text : String) (steps : List BuildStep) : Document :=
  (steps.foldl Builder.step (Builder.start text)).finish

end Keyfile
