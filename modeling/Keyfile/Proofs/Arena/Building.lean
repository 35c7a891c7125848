import Keyfile.Document.Builder
import Mathlib.Tactic.Common

/-! Trees in one flat list. Each node is a slot that names its neighbours by their positions, and every
access to the list is checked. Steps in any order build the list without a fault, and what they build
is the tree of the document laid out in document order. -/
namespace Keyfile

/-- What goes wrong where an access or a sum is not possible. -/
inductive Fault where
  /-- A position outside a list. -/
  | index
  /-- A part that a text or a list does not have. -/
  | slice
  /-- A sum too large for a word. -/
  | overflow
  /-- A difference below zero. -/
  | underflow
  /-- Links followed more often than there are nodes. -/
  | endless
  deriving DecidableEq, Repr

/-- A result, or the first fault on the way to it. -/
abbrev Checked := Except Fault

namespace Checked

variable {α : Type}

def get (xs : List α) (i : Nat) : Checked α :=
  match xs[i]? with
  | none => .error .index
  | some x => .ok x

def modify (xs : List α) (i : Nat) (f : α → α) : Checked (List α) :=
  if i < xs.length then .ok (xs.modify i f) else .error .index

@[simp] theorem ok_bind {β : Type} (a : α) (f : α → Checked β) :
    ((Except.ok a : Checked α) >>= f) = f a := rfl

@[simp] theorem pure_eq (a : α) : (pure a : Checked α) = .ok a := rfl

theorem get_eq {xs : List α} {i : Nat} {x : α} (h : xs[i]? = some x) : get xs i = .ok x := by
  rw [get, h]

theorem get_append (front : List α) (x : α) (back : List α) {i : Nat} (h : front.length = i) :
    get (front ++ x :: back) i = .ok x := by
  apply get_eq
  simp [← h]

theorem modify_append (front : List α) (x : α) (back : List α) (f : α → α) {i : Nat}
    (h : front.length = i) : modify (front ++ x :: back) i f = .ok (front ++ f x :: back) := by
  subst h
  rw [modify, if_pos (by simp)]
  congr 1
  induction front with
  | nil => rfl
  | cons y front ih => simp [ih]

end Checked

/-- A node of a flat tree; its surroundings are positions. -/
structure Slot where
  kind : Kind
  span : Span
  parent : Option Nat
  prev : Option Nat
  next : Option Nat
  first : Option Nat
  last : Option Nat
  deriving DecidableEq, Repr

/-- A text with the nodes of its tree in document order. -/
structure Arena where
  text : String
  slots : List Slot
  deriving DecidableEq, Repr

/-- A flat tree under construction: the nodes so far, and the positions of the open ones, the innermost
first. The root comes last and stays open. -/
structure ArenaBuilder where
  text : String
  slots : List Slot
  pending : List Nat

namespace ArenaBuilder

def start (text : String) : ArenaBuilder :=
  ⟨text, [⟨.document, ⟨0, Text.bytes text.toList⟩, none, none, none, none, none⟩], [0]⟩

/-- Adds a node as the last child of another and links it with its neighbours. -/
def attach (slots : List Slot) (parent : Nat) (kind : Kind) (span : Span) : Checked (List Slot) := do
  let above ← Checked.get slots parent
  let id := slots.length
  let grown := slots ++ [⟨kind, span, some parent, above.last, none, none, none⟩]
  let linked ←
    match above.last with
    | some prev => Checked.modify grown prev ({ · with next := some id })
    | none => Checked.modify grown parent ({ · with first := some id })
  Checked.modify linked parent ({ · with last := some id })

/-- Ends the innermost open node, unless it is the root. -/
def close (b : ArenaBuilder) (stop : Nat) : Checked ArenaBuilder :=
  match b.pending with
  | id :: outer :: rest => do
    let slots ← Checked.modify b.slots id fun s => { s with span := ⟨s.span.start, stop⟩ }
    pure { b with slots := slots, pending := outer :: rest }
  | _ => pure b

def step (b : ArenaBuilder) : BuildStep → Checked ArenaBuilder
  | .leaf kind span => do
    let slots ← attach b.slots (b.pending.headD 0) kind span
    pure { b with slots := slots }
  | .enter kind start => do
    let slots ← attach b.slots (b.pending.headD 0) kind (.point start)
    pure { b with slots := slots, pending := b.slots.length :: b.pending }
  | .exit stop => b.close stop

/-- The finished tree: nodes left open end with the text. -/
def finish (b : ArenaBuilder) : Checked Arena := do
  let done ← b.pending.tail.foldlM (fun acc _ => acc.close (Text.bytes b.text.toList)) b
  pure ⟨done.text, done.slots⟩

end ArenaBuilder

/-- The flat tree that a list of steps builds over a text. -/
def Arena.build (text : String) (steps : List BuildStep) : Checked Arena := do
  let b ← steps.foldlM ArenaBuilder.step (ArenaBuilder.start text)
  b.finish

/-! ### Layout of a tree -/

/-- Position of the first of some nodes laid out from `i` on. -/
def firstIndex (i : Nat) (ns : List Node) : Option Nat := if ns.isEmpty then none else some i

/-- Position of the last of them. -/
def lastIndex (i : Nat) : List Node → Option Nat
  | [] => none
  | n :: ns => (lastIndex (i + n.size) ns).or (some i)

mutual
/-- The slots of a node and all nodes inside it, from position `i` on. -/
def Node.slots (parent prev next : Option Nat) (i : Nat) : Node → List Slot
  | ⟨kind, span, children⟩ =>
    ⟨kind, span, parent, prev, next, firstIndex (i + 1) children, lastIndex (i + 1) children⟩ ::
      Node.slotsAll (some i) none none (i + 1) children
def Node.slotsAll (parent prev next : Option Nat) (i : Nat) : List Node → List Slot
  | [] => []
  | n :: ns =>
    n.slots parent prev (if ns.isEmpty then next else some (i + n.size)) i ++
      Node.slotsAll parent (some i) next (i + n.size) ns
end

theorem Node.sizes_append (ms ns : List Node) :
    Node.sizes (ms ++ ns) = Node.sizes ms + Node.sizes ns := by
  induction ms with
  | nil => simp [Node.sizes]
  | cons m ms ih => simp [Node.sizes, ih, Nat.add_assoc]

mutual
theorem Node.length_slots (n : Node) (parent prev next : Option Nat) (i : Nat) :
    (n.slots parent prev next i).length = n.size := by
  obtain ⟨kind, span, children⟩ := n
  simp [Node.slots, Node.size, Node.length_slotsAll children]
theorem Node.length_slotsAll (ns : List Node) (parent prev next : Option Nat) (i : Nat) :
    (Node.slotsAll parent prev next i ns).length = Node.sizes ns := by
  cases ns with
  | nil => rfl
  | cons n ns =>
    simp [Node.slotsAll, Node.sizes, Node.length_slots n, Node.length_slotsAll ns]
end

theorem lastIndex_concat (i : Nat) (ns : List Node) (n : Node) :
    lastIndex i (ns ++ [n]) = some (i + Node.sizes ns) := by
  induction ns generalizing i with
  | nil => simp [lastIndex, Node.sizes]
  | cons m ns ih => simp [lastIndex, ih, Node.sizes, Nat.add_assoc]

theorem Node.slotsAll_concat (parent prev next : Option Nat) (i : Nat) (ns : List Node) (n : Node) :
    Node.slotsAll parent prev next i (ns ++ [n])
      = Node.slotsAll parent prev (some (i + Node.sizes ns)) i ns ++
          n.slots parent ((lastIndex i ns).or prev) next (i + Node.sizes ns) := by
  induction ns generalizing prev i with
  | nil => simp [Node.slotsAll, lastIndex, Node.sizes]
  | cons m ns ih =>
    have last : (if ns = [] then some (i + (m.size + Node.sizes ns)) else some (i + m.size))
        = some (i + m.size) := by
      cases ns <;> simp [Node.sizes]
    simp [Node.slotsAll, ih, lastIndex, Node.sizes, last, Nat.add_assoc]

/-- The slots of a node with a last child: its own, those of the other children, those of the last. -/
theorem Node.slots_concat (kind : Kind) (span : Span) (ns : List Node) (n : Node)
    (parent prev next : Option Nat) (i : Nat) :
    (Node.mk kind span (ns ++ [n])).slots parent prev next i
      = (⟨kind, span, parent, prev, next, some (i + 1), some (i + 1 + Node.sizes ns)⟩ ::
          Node.slotsAll (some i) none (some (i + 1 + Node.sizes ns)) (i + 1) ns) ++
          n.slots (some i) (lastIndex (i + 1) ns) none (i + 1 + Node.sizes ns) := by
  simp [Node.slots, Node.slotsAll_concat, lastIndex_concat, firstIndex]

theorem Node.slots_eq_cons (n : Node) (parent prev next : Option Nat) (i : Nat) :
    n.slots parent prev next i
      = ⟨n.kind, n.span, parent, prev, next, firstIndex (i + 1) n.children,
          lastIndex (i + 1) n.children⟩ :: Node.slotsAll (some i) none none (i + 1) n.children := by
  cases n
  rfl

/-! ### Trees under construction -/

/-- Some nodes of which the last may be open: then what is inside it is again such a list. -/
inductive Spine where
  | tip (done : List Node)
  | under (done : List Node) (kind : Kind) (start : Nat) (inner : Spine)

namespace Spine

/-- The nodes so far. An open node is still empty text at its start. -/
def nodes : Spine → List Node
  | tip done => done
  | under done kind start inner => done ++ [⟨kind, .point start, inner.nodes⟩]

/-- Positions of the open nodes, the innermost first, when the list belongs to the node at `i`. -/
def ids (i : Nat) : Spine → List Nat
  | tip _ => [i]
  | under done _ _ inner => inner.ids (i + 1 + Node.sizes done) ++ [i]

/-- Position of the innermost open node. -/
def innermost (i : Nat) : Spine → Nat
  | tip _ => i
  | under done _ _ inner => inner.innermost (i + 1 + Node.sizes done)

/-- Adds a finished node in the innermost place. -/
def push (n : Node) : Spine → Spine
  | tip done => tip (done ++ [n])
  | under done kind start inner => under done kind start (inner.push n)

/-- Opens a node in the innermost place. -/
def enter (kind : Kind) (start : Nat) : Spine → Spine
  | tip done => under done kind start (tip [])
  | under done k s inner => under done k s (inner.enter kind start)

/-- Ends the innermost open node. -/
def close (stop : Nat) : Spine → Spine
  | tip done => tip done
  | under done kind start (tip inside) => tip (done ++ [⟨kind, ⟨start, stop⟩, inside⟩])
  | under done kind start inner => under done kind start (inner.close stop)

/-- Number of open nodes. -/
def depth : Spine → Nat
  | tip _ => 0
  | under _ _ _ inner => inner.depth + 1

theorem length_ids (i : Nat) (s : Spine) : (s.ids i).length = s.depth + 1 := by
  induction s generalizing i with
  | tip done => rfl
  | under done kind start inner ih => simp [ids, depth, ih]

theorem headD_ids (i : Nat) (s : Spine) : (s.ids i).headD 0 = s.innermost i := by
  induction s generalizing i with
  | tip done => rfl
  | under done kind start inner ih =>
    rw [ids, innermost, ← ih]
    cases inner <;> simp [ids]

@[simp] theorem ids_push (i : Nat) (n : Node) (s : Spine) : (s.push n).ids i = s.ids i := by
  induction s generalizing i with
  | tip done => rfl
  | under done kind start inner ih => simp [push, ids, ih]

theorem nodes_enter (kind : Kind) (start : Nat) (s : Spine) :
    (s.enter kind start).nodes = (s.push ⟨kind, .point start, []⟩).nodes := by
  induction s with
  | tip done => rfl
  | under done k b inner ih => simp [enter, push, nodes, ih]

/-- A node that is opened takes the position after all nodes so far. -/
theorem ids_enter (i : Nat) (kind : Kind) (start : Nat) (s : Spine) :
    (s.enter kind start).ids i = (i + 1 + Node.sizes s.nodes) :: s.ids i := by
  induction s generalizing i with
  | tip done => rfl
  | under done k b inner ih =>
    simp only [enter, ids, ih, nodes, List.cons_append, List.cons.injEq, and_true]
    simp [Node.sizes_append, Node.sizes, Node.size]
    omega

/-- Whether some node is open. -/
def isOpen : Spine → Bool
  | tip _ => false
  | under .. => true

theorem eq_tip {s : Spine} (h : s.isOpen = false) : ∃ done, s = tip done := by
  cases s with
  | tip done => exact ⟨done, rfl⟩
  | under => cases h

theorem close_under {inner : Spine} (h : inner.isOpen) (done : List Node) (kind : Kind) (start stop : Nat) :
    (under done kind start inner).close stop = under done kind start (inner.close stop) := by
  cases inner with
  | tip inside => cases h
  | under => rfl

theorem ids_close {s : Spine} (h : s.isOpen) (i stop : Nat) : (s.close stop).ids i = (s.ids i).tail := by
  induction s generalizing i with
  | tip done => cases h
  | under done kind start inner ih =>
    cases inner with
    | tip inside => rfl
    | under d k b t =>
      rw [close_under rfl, ids, ids, ih rfl, List.tail_append_of_ne_nil]
      simp [ids]

theorem ids_ne_nil (s : Spine) (i : Nat) : s.ids i ≠ [] := by
  cases s <;> simp [ids]

theorem ids_eq_cons {s : Spine} (h : s.isOpen) (i stop : Nat) :
    s.ids i = s.innermost i :: (s.close stop).ids i := by
  obtain ⟨id, rest, split⟩ := List.exists_cons_of_ne_nil (s.ids_ne_nil i)
  rw [ids_close h, ← headD_ids, split]
  rfl

end Spine

namespace ArenaBuilder

/-- The next sibling of a node is set in its own slot, wherever its layout stands. -/
theorem modify_next (front back : List Slot) {i : Nat} (len : front.length = i) (n : Node)
    (parent prev next other : Option Nat) :
    Checked.modify (front ++ (n.slots parent prev next i ++ back)) i ({ · with next := other })
      = .ok (front ++ (n.slots parent prev other i ++ back)) := by
  simp only [n.slots_eq_cons, List.cons_append]
  exact Checked.modify_append front _ _ _ len

section Attach

variable (front : List Slot) {i : Nat} (len : front.length = i) (kind : Kind) (span : Span)
  (parent prev : Option Nat) (k : Kind) (s : Span)
include len

/-- A first child is linked from its parent only. -/
theorem attach_childless :
    attach (front ++ (Node.mk kind span []).slots parent prev none i) i k s
      = .ok (front ++ (Node.mk kind span [⟨k, s, []⟩]).slots parent prev none i) := by
  rw [attach, Node.slots, Checked.get_append front _ _ len]
  simp only [Checked.ok_bind, lastIndex, List.append_assoc, List.cons_append]
  rw [Checked.modify_append front _ _ _ len, Checked.ok_bind, Checked.modify_append front _ _ _ len]
  simp [Node.slots, Node.slotsAll, lastIndex, firstIndex, len]

/-- A further child is linked from the one before it and from its parent. -/
theorem attach_beside (others : List Node) (child : Node) :
    attach (front ++ (Node.mk kind span (others ++ [child])).slots parent prev none i) i k s
      = .ok (front ++
          (Node.mk kind span (others ++ [child] ++ [⟨k, s, []⟩])).slots parent prev none i) := by
  rw [attach, Node.slots_concat, Node.slots_concat, List.cons_append, Checked.get_append front _ _ len]
  generalize at_child : i + 1 + Node.sizes others = j
  generalize siblings : Node.slotsAll (some i) none (some j) (i + 1) others = layout
  have before : ∀ x, (front ++ x :: layout).length = j := by
    intro x
    simp [← siblings, Node.length_slotsAll]
    omega
  have linked := modify_next _ [⟨k, s, some i, some j, none, none, none⟩]
    (before ⟨kind, span, parent, prev, none, some (i + 1), some j⟩) child (some i)
    (lastIndex (i + 1) others) none (some (j + child.size))
  have id : (front ++ ⟨kind, span, parent, prev, none, some (i + 1), some j⟩ ::
      (layout ++ child.slots (some i) (lastIndex (i + 1) others) none j)).length = j + child.size := by
    rw [← before ⟨kind, span, parent, prev, none, some (i + 1), some j⟩]
    simp [Node.length_slots]
    omega
  simp only [Checked.ok_bind, id, List.append_assoc, List.cons_append] at linked ⊢
  rw [linked, Checked.ok_bind, Checked.modify_append front _ _ _ len]
  have index : i + 1 + (Node.sizes others + child.size) = j + child.size := by omega
  simp [Node.slotsAll_concat, Node.sizes_append, Node.sizes, lastIndex_concat, at_child, siblings, index,
    Node.slots, Node.slotsAll, firstIndex, lastIndex]

/-- Attaching to a node at the end of a layout adds a last child to it. -/
theorem attach_node (done : List Node) :
    attach (front ++ (Node.mk kind span done).slots parent prev none i) i k s
      = .ok (front ++ (Node.mk kind span (done ++ [⟨k, s, []⟩])).slots parent prev none i) := by
  obtain rfl | ⟨others, child, rfl⟩ := List.eq_nil_or_concat done
  · exact attach_childless front len kind span parent prev k s
  · rw [List.concat_eq_append]
    exact attach_beside front len kind span parent prev k s others child

end Attach

/-- Attaching in the innermost place of a spine, whose node stands at the end of a layout. What is laid out
before the innermost open node does not change, and grows with each level of the spine. -/
theorem attach_spine (spine : Spine) (front : List Slot) {i : Nat} (len : front.length = i) (kind : Kind)
    (span : Span) (parent prev : Option Nat) (k : Kind) (s : Span) :
    attach (front ++ (Node.mk kind span spine.nodes).slots parent prev none i) (spine.innermost i) k s
      = .ok (front ++
          (Node.mk kind span (spine.push ⟨k, s, []⟩).nodes).slots parent prev none i) := by
  induction spine generalizing front i kind span parent prev with
  | tip done => exact attach_node front len kind span parent prev k s done
  | under done k' b inner ih =>
    simp only [Spine.push, Spine.nodes, Node.slots_concat, Spine.innermost, ← List.append_assoc]
    apply ih
    simp [Node.length_slotsAll]
    omega

/-- Ending the innermost open node of a spine. -/
theorem modify_stop (spine : Spine) (h : spine.isOpen) (front : List Slot) {i : Nat}
    (len : front.length = i) (kind : Kind) (span : Span) (parent prev : Option Nat) (stop : Nat) :
    Checked.modify (front ++ (Node.mk kind span spine.nodes).slots parent prev none i)
        (spine.innermost i) (fun s => { s with span := ⟨s.span.start, stop⟩ })
      = .ok (front ++ (Node.mk kind span (spine.close stop).nodes).slots parent prev none i) := by
  induction spine generalizing front i kind span parent prev with
  | tip done => cases h
  | under done k b inner ih =>
    cases deeper : inner.isOpen with
    | false =>
      obtain ⟨inside, rfl⟩ := Spine.eq_tip deeper
      simp only [Spine.close, Spine.nodes, Node.slots_concat, Spine.innermost, ← List.append_assoc]
      apply Checked.modify_append
      simp [Node.length_slotsAll]
      omega
    | true =>
      simp only [Spine.close_under deeper, Spine.nodes, Node.slots_concat, Spine.innermost,
        ← List.append_assoc]
      apply ih deeper
      simp [Node.length_slotsAll]
      omega

end ArenaBuilder

/-! ### Building step by step -/

namespace Builder

/-- Wraps what is inside an open node into that node and those open around it, the innermost first. -/
def wrap (top : List Node) (kind : Kind) (start : Nat) (inside : Spine) : List OpenNode → Spine
  | [] => .under top.reverse kind start inside
  | o :: os => wrap top o.kind o.start (.under o.inside.reverse kind start inside) os

/-- The tree so far, seen from the root. -/
def spine (b : Builder) : Spine :=
  match b.pending with
  | [] => .tip b.top.reverse
  | o :: os => wrap b.top o.kind o.start (.tip o.inside.reverse) os

/-- A change in the innermost place can be made before or after wrapping. -/
theorem wrap_change (change : Spine → Spine) (P : Spine → Prop)
    (passes : ∀ done kind start inner, P inner →
      change (.under done kind start inner) = .under done kind start (change inner) ∧
        P (.under done kind start inner))
    (top : List Node) (kind : Kind) (start : Nat) (inside : Spine) (h : P inside) (os : List OpenNode) :
    wrap top kind start (change inside) os = change (wrap top kind start inside os) := by
  induction os generalizing kind start inside with
  | nil => exact (passes _ _ _ _ h).1.symm
  | cons o os ih =>
    obtain ⟨moved, holds⟩ := passes o.inside.reverse kind start inside h
    rw [wrap, wrap, ← moved, ih o.kind o.start _ holds]

theorem depth_wrap (top : List Node) (kind : Kind) (start : Nat) (inside : Spine) (os : List OpenNode) :
    (wrap top kind start inside os).depth = inside.depth + os.length + 1 := by
  induction os generalizing kind start inside with
  | nil => rfl
  | cons o os ih =>
    rw [wrap, ih, List.length_cons, Spine.depth]
    omega

theorem depth_spine (b : Builder) : b.spine.depth = b.pending.length := by
  rw [spine]
  cases b.pending with
  | nil => rfl
  | cons o os => simp [depth_wrap, Spine.depth]

theorem spine_attach (b : Builder) (n : Node) : (b.attach n).spine = b.spine.push n := by
  obtain ⟨text, top, pending⟩ := b
  cases pending with
  | nil => simp [attach, spine, Spine.push]
  | cons o os =>
    have pushed := wrap_change (·.push n) (fun _ => True) (fun _ _ _ _ _ => ⟨rfl, trivial⟩) top o.kind
      o.start (.tip o.inside.reverse) trivial os
    simpa [attach, spine, Spine.push] using pushed

theorem spine_enter (b : Builder) (kind : Kind) (start : Nat) :
    (b.step (.enter kind start)).spine = b.spine.enter kind start := by
  obtain ⟨text, top, pending⟩ := b
  cases pending with
  | nil => rfl
  | cons o os =>
    exact wrap_change (·.enter kind start) (fun _ => True) (fun _ _ _ _ _ => ⟨rfl, trivial⟩) top o.kind
      o.start (.tip o.inside.reverse) trivial os

theorem spine_close (b : Builder) (stop : Nat) : (b.close stop).spine = b.spine.close stop := by
  obtain ⟨text, top, pending⟩ := b
  cases pending with
  | nil => rfl
  | cons o os =>
    rw [close, spine_attach]
    cases os with
    | nil => rfl
    | cons p os =>
      have pushed := wrap_change (·.push ⟨o.kind, ⟨o.start, stop⟩, o.inside.reverse⟩) (fun _ => True)
        (fun _ _ _ _ _ => ⟨rfl, trivial⟩) top p.kind p.start (.tip p.inside.reverse) trivial os
      have closed := wrap_change (·.close stop) (·.isOpen)
        (fun _ _ _ _ deeper => ⟨Spine.close_under deeper .., rfl⟩) top p.kind p.start
        (.under p.inside.reverse o.kind o.start (.tip o.inside.reverse)) rfl os
      exact pushed.symm.trans closed

@[simp] theorem length_pending_attach (b : Builder) (n : Node) :
    (b.attach n).pending.length = b.pending.length := by
  rw [attach]
  cases b.pending <;> simp

theorem length_pending_close (b : Builder) (stop : Nat) :
    (b.close stop).pending.length = b.pending.length - 1 := by
  rw [close]
  cases pending : b.pending <;> simp [pending]

@[simp] theorem text_attach (b : Builder) (n : Node) : (b.attach n).text = b.text := by
  rw [attach]
  cases b.pending <;> rfl

@[simp] theorem text_close (b : Builder) (stop : Nat) : (b.close stop).text = b.text := by
  rw [close]
  cases b.pending <;> simp

@[simp] theorem text_step (b : Builder) (s : BuildStep) : (b.step s).text = b.text := by
  cases s with
  | leaf kind span => exact b.text_attach _
  | enter kind start => rfl
  | exit stop => exact b.text_close stop

/-- The tree so far, laid out flat. -/
def flat (b : Builder) : ArenaBuilder where
  text := b.text
  slots := (Node.mk .document ⟨0, Text.bytes b.text.toList⟩ b.spine.nodes).slots none none none 0
  pending := b.spine.ids 0

theorem flat_start (text : String) : (start text).flat = .start text := rfl

theorem flat_attach (b : Builder) (kind : Kind) (span : Span) :
    ArenaBuilder.attach b.flat.slots (b.flat.pending.headD 0) kind span
      = .ok (b.attach ⟨kind, span, []⟩).flat.slots := by
  simp only [flat, Spine.headD_ids, spine_attach, text_attach]
  exact ArenaBuilder.attach_spine b.spine [] rfl _ _ _ _ kind span

theorem flat_close (b : Builder) (stop : Nat) : b.flat.close stop = .ok (b.close stop).flat := by
  cases isOpen : b.spine.isOpen with
  | false =>
    obtain ⟨done, tip⟩ := Spine.eq_tip isOpen
    simp [ArenaBuilder.close, flat, spine_close, tip, Spine.ids, Spine.close]
  | true =>
    obtain ⟨outer, rest, left⟩ := List.exists_cons_of_ne_nil ((b.spine.close stop).ids_ne_nil 0)
    have ended := ArenaBuilder.modify_stop b.spine isOpen [] rfl .document
      ⟨0, Text.bytes b.text.toList⟩ none none stop
    simp only [List.nil_append, List.length_nil] at ended
    simp [ArenaBuilder.close, flat, spine_close, Spine.ids_eq_cons isOpen 0 stop, left, ended]

/-- One step on the layout lays out one step. -/
theorem flat_step (b : Builder) (s : BuildStep) : b.flat.step s = .ok (b.step s).flat := by
  cases s with
  | leaf kind span =>
    rw [ArenaBuilder.step, flat_attach]
    simp [flat, spine_attach, step]
  | enter kind start =>
    have id : (Node.mk .document ⟨0, Text.bytes b.text.toList⟩ b.spine.nodes).size
        = 0 + 1 + Node.sizes b.spine.nodes := by
      rw [Node.size]
      omega
    rw [ArenaBuilder.step, flat_attach]
    simp [flat, spine_attach, spine_enter, Spine.nodes_enter, Spine.ids_enter, Node.length_slots, id]
  | exit stop => exact flat_close b stop

/-- Closing nodes one after the other, as often as there are elements in a list. -/
theorem flat_closes {α β : Type} (b : Builder) (stop : Nat) (xs : List α) (ys : List β)
    (h : xs.length = ys.length) :
    xs.foldlM (fun acc _ => acc.close stop) b.flat = .ok (ys.foldl (fun acc _ => acc.close stop) b).flat := by
  induction xs generalizing b ys with
  | nil =>
    obtain rfl := List.length_eq_zero_iff.1 h.symm
    rfl
  | cons x xs ih =>
    obtain ⟨y, ys, rfl⟩ := List.exists_cons_of_length_eq_add_one h.symm
    rw [List.foldlM_cons, flat_close, Checked.ok_bind, List.foldl_cons]
    exact ih _ ys (by simpa using h)

theorem length_pending_closes {β : Type} (b : Builder) (stop : Nat) (ys : List β) :
    (ys.foldl (fun acc _ => acc.close stop) b).pending.length = b.pending.length - ys.length := by
  induction ys generalizing b with
  | nil => rfl
  | cons y ys ih =>
    rw [List.foldl_cons, ih, length_pending_close, List.length_cons]
    omega

theorem text_closes {β : Type} (b : Builder) (stop : Nat) (ys : List β) :
    (ys.foldl (fun acc _ => acc.close stop) b).text = b.text := by
  induction ys generalizing b with
  | nil => rfl
  | cons y ys ih => rw [List.foldl_cons, ih, text_close]

end Builder

/-- The tree of a document, laid out flat. -/
def Document.flat (d : Document) : Arena := ⟨d.text, d.root.slots none none none 0⟩

namespace Builder

theorem flat_finish (b : Builder) : b.flat.finish = .ok b.finish.flat := by
  have count : b.flat.pending.tail.length = b.pending.length := by
    simp [flat, Spine.length_ids, depth_spine]
  have closed := b.flat_closes (Text.bytes b.text.toList) _ _ count
  have none_left := b.length_pending_closes (Text.bytes b.text.toList) b.pending
  rw [Nat.sub_self, List.length_eq_zero_iff] at none_left
  have text : b.flat.text = b.text := rfl
  rw [ArenaBuilder.finish, text, closed, Checked.ok_bind]
  simp only [finish, closeAll, Document.flat, Document.root, Document.size, flat, spine, none_left,
    Spine.nodes, text_closes]
  rfl

theorem flat_steps (b : Builder) (steps : List BuildStep) :
    steps.foldlM ArenaBuilder.step b.flat = .ok (steps.foldl Builder.step b).flat := by
  induction steps generalizing b with
  | nil => rfl
  | cons s steps ih => rw [List.foldlM_cons, b.flat_step, Checked.ok_bind, ih, List.foldl_cons]

end Builder

theorem Document.text_build (text : String) (steps : List BuildStep) :
    (Document.build text steps).text = text := by
  have kept : ∀ b : Builder, (steps.foldl Builder.step b).text = b.text := by
    induction steps with
    | nil => exact fun _ => rfl
    | cons s steps ih =>
      intro b
      rw [List.foldl_cons, ih, b.text_step]
  exact kept (Builder.start text)

/-- Steps in any order build a flat tree without a fault: the layout of the document that they build. -/
theorem Arena.build_eq (text : String) (steps : List BuildStep) :
    Arena.build text steps = .ok (Document.build text steps).flat := by
  rw [Arena.build, ← Builder.flat_start, Builder.flat_steps, Checked.ok_bind, Builder.flat_finish,
    Document.build]

end Keyfile
