import Keyfile.Proofs.Arena.Walking
import Mathlib.Data.List.Sort

/-! Flat trees in document order. Steps in any order build links that agree with each other: the children
of a node are the nodes that name it as their parent, in the order of their positions, and a walk along the
links meets every node once, in that order. A step adds nodes at the end and never moves one that is
there. -/
namespace Keyfile

/-! ### Nodes and the nodes inside them -/

namespace Cursor

/-- The nodes of a level stand under the same frames, beside each other. -/
theorem of_mem_level {above : List Frame} {before ns : List Node} {x : Cursor}
    (h : x ∈ level above before ns) :
    x.above = above ∧ x.before.reverse ++ x.node :: x.after = before.reverse ++ ns := by
  induction ns generalizing before with
  | nil => cases h
  | cons n ns ih =>
    rcases List.mem_cons.1 h with rfl | later
    · exact ⟨rfl, rfl⟩
    · simpa using ih later

theorem mem_children_iff {c x : Cursor} : x ∈ c.children ↔ x.parent? = some c := by
  constructor
  · intro child
    obtain ⟨⟨kind, span, inner⟩, before, after, above⟩ := c
    obtain ⟨frames, beside⟩ := of_mem_level child
    rw [parent?, frames, beside]
    rfl
  · intro parent
    obtain ⟨node, before, after, above⟩ := x
    cases above with
    | nil => cases parent
    | cons f fs =>
      cases parent
      simpa [children, frame] using mem_level (f :: fs) [] before.reverse node after

theorem next?_eq_iff {c x : Cursor} : c.next? = some x ↔ x.prev? = some c := by
  obtain ⟨node, before, after, above⟩ := c
  obtain ⟨other, left, right, frames⟩ := x
  cases after <;> cases left <;> simp [next?, prev?, eq_comm, and_assoc, and_left_comm]

theorem parentPosition_lt {f : Frame} {fs : List Frame} (before : List Node) :
    precedingCount fs f.before < precedingCount (f :: fs) before := by
  rw [precedingCount]
  omega

theorem position_children_pairwise (c : Cursor) : (c.children.map position).Pairwise (· < ·) := by
  have inside := (level_sublist_visitAll (c.frame :: c.above) [] c.node.children).map position
  rw [Node.map_position_visitAll] at inside
  exact (List.pairwise_lt_range' ..).sublist inside

end Cursor

section Visited

variable {c : Cursor}

mutual
/-- The node around a visited one is visited, unless that is the outermost one. -/
theorem Node.parent_mem_visit (n : Node) (above : List Frame) (before after : List Node)
    (h : c ∈ n.visit above before after) :
    c = ⟨n, before, after, above⟩ ∨ ∃ p ∈ n.visit above before after, c.parent? = some p := by
  obtain ⟨kind, span, children⟩ := n
  rw [Node.visit] at h ⊢
  rcases List.mem_cons.1 h with rfl | inside
  · exact .inl rfl
  · right
    rcases Node.parent_mem_visitAll children _ _ inside with child | ⟨p, visited, parent⟩
    · exact ⟨_, List.mem_cons_self, Cursor.mem_children_iff.1 child⟩
    · exact ⟨p, List.mem_cons_of_mem _ visited, parent⟩
theorem Node.parent_mem_visitAll (ns : List Node) (above : List Frame) (before : List Node)
    (h : c ∈ Node.visitAll above before ns) :
    c ∈ Cursor.level above before ns ∨ ∃ p ∈ Node.visitAll above before ns, c.parent? = some p := by
  cases ns with
  | nil => cases h
  | cons n ns =>
    rw [Node.visitAll] at h ⊢
    rcases List.mem_append.1 h with here | later
    · rcases Node.parent_mem_visit n _ _ _ here with rfl | ⟨p, visited, parent⟩
      · exact .inl List.mem_cons_self
      · exact .inr ⟨p, List.mem_append_left _ visited, parent⟩
    · rcases Node.parent_mem_visitAll ns _ _ later with level | ⟨p, visited, parent⟩
      · exact .inl (List.mem_cons_of_mem _ level)
      · exact .inr ⟨p, List.mem_append_right _ visited, parent⟩
end

end Visited

namespace Document

variable {d : Document} {c x : Cursor}

/-- Every node but the root has one around it. -/
theorem eq_root_or_parent (h : c ∈ d.cursors) : c = d.rootCursor ∨ ∃ p ∈ d.cursors, c.parent? = some p :=
  d.root.parent_mem_visit _ _ _ h

theorem parent_mem (h : c ∈ d.cursors) (parent : c.parent? = some x) : x ∈ d.cursors := by
  rcases eq_root_or_parent h with rfl | ⟨p, visited, found⟩
  · cases parent
  · exact Option.some.inj (found.symm.trans parent) ▸ visited

theorem eq_of_position (hc : c ∈ d.cursors) (hx : x ∈ d.cursors) (same : c.position = x.position) : c = x := by
  have place := getElem?_cursors hc
  rw [same, getElem?_cursors hx] at place
  exact (Option.some.inj place).symm

theorem exists_at {i : Nat} (h : i < d.flat.slots.length) : ∃ c ∈ d.cursors, c.position = i := by
  rw [length_slots_flat, ← length_cursors, ← List.mem_range, ← map_position_cursors] at h
  exact List.mem_map.1 h

end Document

/-! ### Links that agree with each other -/

namespace Arena

/-- A link of the node at a position. -/
def link? (a : Arena) (link : Slot → Option Nat) (i : Nat) : Option Nat := a.slots[i]?.bind link

/-- The nodes that name a node as their parent, in the order of their positions. -/
def inside (a : Arena) (i : Nat) : List Nat :=
  (List.range a.slots.length).filter (a.link? Slot.parent · == some i)

/-- The nodes in a row, from one on along its right neighbours. -/
def row (a : Arena) : Nat → Option Nat → Checked (List Nat)
  | _, none => pure []
  | 0, some _ => throw .endless
  | fuel + 1, some i => do
    let s ← a.slot i
    let rest ← a.row fuel s.next
    pure (i :: rest)

/-- The children of a node, found along the links. -/
def children (a : Arena) (i : Nat) : Checked (List Nat) := do
  let s ← a.slot i
  a.row a.slots.length s.first

/-- The nodes in a row with all that is inside them: each node, then its children, then its right
neighbours. -/
def walk (a : Arena) : Nat → Option Nat → Checked (List Nat)
  | _, none => pure []
  | 0, some _ => throw .endless
  | fuel + 1, some i => do
    let s ← a.slot i
    let deeper ← a.walk fuel s.first
    let rest ← a.walk fuel s.next
    pure (i :: deeper ++ rest)

/-- The links show one tree, with its nodes in document order. -/
structure Preorder (a : Arena) : Prop where
  root : 0 < a.slots.length ∧ a.link? Slot.parent 0 = none
  parent_lt : ∀ i < a.slots.length, i ≠ 0 → ∃ p < i, a.link? Slot.parent i = some p
  next_iff : ∀ i j, a.link? Slot.next i = some j ↔ a.link? Slot.prev j = some i
  next_parent : ∀ i j, a.link? Slot.next i = some j → a.link? Slot.parent j = a.link? Slot.parent i
  children : ∀ i < a.slots.length, a.children i = .ok (a.inside i)
  first : ∀ i < a.slots.length, a.link? Slot.first i = (a.inside i).head?
  walk : a.walk a.slots.length (some 0) = .ok (List.range a.slots.length)

/-- The slots are the nodes of a document in their order, with the same neighbours. -/
structure Shows (a : Arena) (d : Document) : Prop where
  slots : a.slots = d.cursors.map Cursor.slot
  position : d.cursors.map Cursor.position = List.range a.slots.length
  children : ∀ c ∈ d.cursors, a.children c.position = .ok (c.children.map Cursor.position)

end Arena

namespace Document

variable {d : Document} {c : Cursor}

theorem link?_flat (h : c ∈ d.cursors) (link : Slot → Option Nat) :
    d.flat.link? link c.position = link c.slot := by
  rw [Arena.link?, slots_flat, List.getElem?_map, getElem?_cursors h]
  rfl

theorem exists_of_link? {link : Slot → Option Nat} {i j : Nat} (h : d.flat.link? link i = some j) :
    ∃ c ∈ d.cursors, c.position = i ∧ link c.slot = some j := by
  obtain ⟨s, found, -⟩ := Option.bind_eq_some_iff.1 h
  obtain ⟨c, listed, rfl⟩ := exists_at (List.getElem?_eq_some_iff.1 found).1
  exact ⟨c, listed, rfl, link?_flat listed link ▸ h⟩

theorem next_iff_prev (d : Document) (i j : Nat) :
    d.flat.link? Slot.next i = some j ↔ d.flat.link? Slot.prev j = some i := by
  constructor
  · intro h
    obtain ⟨c, listed, rfl, link⟩ := exists_of_link? h
    obtain ⟨x, next, rfl⟩ := Option.map_eq_some_iff.1 link
    rw [link?_flat (next_mem listed next), Cursor.prev_slot, Cursor.next?_eq_iff.1 next]
    rfl
  · intro h
    obtain ⟨c, listed, rfl, link⟩ := exists_of_link? h
    obtain ⟨x, prev, rfl⟩ := Option.map_eq_some_iff.1 link
    rw [link?_flat (prev_mem listed prev), Cursor.next_slot, Cursor.next?_eq_iff.2 prev]
    rfl

theorem parent_of_next {i j : Nat} (h : d.flat.link? Slot.next i = some j) :
    d.flat.link? Slot.parent j = d.flat.link? Slot.parent i := by
  obtain ⟨c, listed, rfl, link⟩ := exists_of_link? h
  obtain ⟨x, next, rfl⟩ := Option.map_eq_some_iff.1 link
  have level : x.above = c.above := by
    obtain ⟨node, before, after, above⟩ := c
    cases after with
    | nil => cases next
    | cons n ns => cases next; rfl
  rw [link?_flat (next_mem listed next), link?_flat listed, Cursor.slot, Cursor.slot,
    Cursor.map_position_parent?, Cursor.map_position_parent?, level]

theorem parent_lt {i : Nat} (bound : i < d.flat.slots.length) (inner : i ≠ 0) :
    ∃ p < i, d.flat.link? Slot.parent i = some p := by
  obtain ⟨c, listed, rfl⟩ := exists_at bound
  rcases eq_root_or_parent listed with rfl | ⟨p, -, parent⟩
  · exact absurd rfl inner
  · obtain ⟨node, before, after, above⟩ := c
    cases above with
    | nil => cases parent
    | cons f fs => exact ⟨_, Cursor.parentPosition_lt before, link?_flat listed _⟩

/-- The nodes that name a node as their parent are its children. -/
theorem inside_flat (h : c ∈ d.cursors) : d.flat.inside c.position = c.children.map Cursor.position := by
  refine (List.pairwise_lt_range.filter _).eq_of_mem_iff c.position_children_pairwise fun j => ?_
  rw [List.mem_filter, List.mem_range, beq_iff_eq, List.mem_map]
  constructor
  · rintro ⟨bound, parent⟩
    obtain ⟨x, listed, rfl⟩ := exists_at bound
    rw [link?_flat listed] at parent
    obtain ⟨p, around, same⟩ := Option.map_eq_some_iff.1 parent
    obtain rfl := eq_of_position (parent_mem listed around) h same
    exact ⟨x, Cursor.mem_children_iff.2 around, rfl⟩
  · rintro ⟨x, child, rfl⟩
    have listed := children_subset h child
    rw [link?_flat listed]
    refine ⟨?_, ?_⟩
    · rw [length_slots_flat, ← length_cursors]
      exact (List.getElem?_eq_some_iff.1 (getElem?_cursors listed)).1
    · rw [Cursor.slot, Cursor.mem_children_iff.1 child]
      rfl

theorem row_flat (above : List Frame) (before ns : List Node) (fuel : Nat) (enough : ns.length ≤ fuel)
    (h : Cursor.level above before ns ⊆ d.cursors) :
    d.flat.row fuel ((Cursor.level above before ns).head?.map Cursor.position)
      = .ok ((Cursor.level above before ns).map Cursor.position) := by
  induction ns generalizing before fuel with
  | nil => cases fuel <;> rfl
  | cons n ns ih =>
    obtain ⟨fuel, rfl⟩ := Nat.exists_eq_add_one_of_ne_zero (Nat.ne_zero_of_lt enough)
    have here : ⟨n, before, ns, above⟩ ∈ d.cursors := h List.mem_cons_self
    have next := ih (n :: before) fuel (Nat.le_of_succ_le_succ enough) fun x later =>
      h (List.mem_cons_of_mem _ later)
    rw [← next?_eq_head?_level] at next
    rw [Cursor.level, List.head?_cons, Option.map_some, Arena.row, slot_flat here, Checked.ok_bind,
      Cursor.next_slot, next]
    rfl

theorem children_flat (h : c ∈ d.cursors) :
    d.flat.children c.position = .ok (c.children.map Cursor.position) := by
  rw [Arena.children, slot_flat h, Checked.ok_bind]
  exact row_flat _ _ _ _ (length_children_le h) (children_subset h)

/-- A walk from the first node of a level on meets the nodes there and inside them, position after
position. The induction is on the number of links that may be followed one inside the other. -/
theorem walk_flat (above : List Frame) (before ns : List Node) (fuel : Nat) (enough : Node.sizes ns ≤ fuel)
    (h : Cursor.level above before ns ⊆ d.cursors) :
    d.flat.walk fuel ((Cursor.level above before ns).head?.map Cursor.position)
      = .ok (List.range' (Cursor.precedingCount above before) (Node.sizes ns)) := by
  induction fuel generalizing above before ns with
  | zero =>
    cases ns with
    | nil => rfl
    | cons n ns => simp [Node.sizes, n.size_eq] at enough
  | succ fuel ih =>
    cases ns with
    | nil => rfl
    | cons n ns =>
      have here : ⟨n, before, ns, above⟩ ∈ d.cursors := h List.mem_cons_self
      rw [Node.sizes, n.size_eq] at enough
      have deeper := ih _ [] n.children (by omega) (children_subset here)
      have later := ih above (n :: before) ns (by omega) fun x later => h (List.mem_cons_of_mem _ later)
      rw [← next?_eq_head?_level] at later
      rw [Cursor.level, List.head?_cons, Option.map_some, Arena.walk, slot_flat here, Checked.ok_bind,
        Cursor.first_slot, Cursor.next_slot, later, Cursor.firstChild?, Cursor.children, deeper]
      have inner : Cursor.precedingCount (Cursor.frame ⟨n, before, ns, above⟩ :: above) []
          = Cursor.precedingCount above before + 1 := rfl
      rw [inner, Cursor.precedingCount_cons, Node.sizes, ← List.range'_append_1, n.size_eq,
        List.range'_succ]
      rfl

theorem flat_preorder (d : Document) : d.flat.Preorder where
  root := ⟨by simp [length_slots_flat, Node.size_eq], link?_flat d.rootCursor_mem Slot.parent⟩
  parent_lt i bound inner := parent_lt bound inner
  next_iff := d.next_iff_prev
  next_parent i j h := parent_of_next h
  children i bound := by
    obtain ⟨c, listed, rfl⟩ := exists_at bound
    rw [children_flat listed, inside_flat listed]
  first i bound := by
    obtain ⟨c, listed, rfl⟩ := exists_at bound
    rw [link?_flat listed, inside_flat listed, List.head?_map]
    rfl
  walk := by
    have alone : Cursor.level [] [] [d.root] ⊆ d.cursors :=
      List.cons_subset.2 ⟨d.rootCursor_mem, List.nil_subset _⟩
    have size : Node.sizes [d.root] = d.flat.slots.length := d.length_slots_flat.symm
    have whole := walk_flat [] [] [d.root] d.flat.slots.length (Nat.le_of_eq size) alone
    rw [size] at whole
    rw [List.range_eq_range']
    exact whole

theorem flat_shows (d : Document) : d.flat.Shows d where
  slots := d.slots_flat
  position := by rw [map_position_cursors, length_slots_flat, length_cursors]
  children c listed := children_flat listed

end Document

/-! ### What steps keep -/

/-- What stays as it is once a node is added: its kind, its parent and its left neighbour. -/
def Slot.fixed (s : Slot) : Kind × Option Nat × Option Nat := (s.kind, s.parent, s.prev)

namespace Checked

variable {α β : Type}

theorem of_bind_eq_ok {x : Checked α} {f : α → Checked β} {b : β} (h : x >>= f = .ok b) :
    ∃ a, x = .ok a ∧ f a = .ok b := by
  cases x with
  | error fault => cases h
  | ok a => exact ⟨a, rfl, h⟩

/-- Changing one element keeps what the change does not touch. -/
theorem map_of_modify {xs ys : List α} {i : Nat} {f : α → α} (h : modify xs i f = .ok ys) {part : α → β}
    (same : ∀ x, part (f x) = part x) : ys.map part = xs.map part := by
  rw [modify] at h
  split at h
  · cases h
    apply List.ext_getElem?
    intro j
    rw [List.getElem?_map, List.getElem?_map, List.getElem?_modify]
    cases xs[j]? with
    | none => rfl
    | some x => by_cases hit : i = j <;> simp [hit, same]
  · cases h

end Checked

namespace ArenaBuilder

variable {b next : ArenaBuilder}

/-- A new node and its links, each in a slot that was there, leave the rest of the slots alone. -/
theorem fixed_attach {slots grown : List Slot} {parent : Nat} {kind : Kind} {span : Span}
    (h : attach slots parent kind span = .ok grown) : slots.map Slot.fixed <+: grown.map Slot.fixed := by
  obtain ⟨above, -, h⟩ := Checked.of_bind_eq_ok h
  cases last : above.last with
  | none =>
    simp only [last] at h
    obtain ⟨linked, first, h⟩ := Checked.of_bind_eq_ok h
    rw [Checked.map_of_modify h fun _ => rfl, Checked.map_of_modify first fun _ => rfl, List.map_append]
    exact List.prefix_append _ _
  | some prev =>
    simp only [last] at h
    obtain ⟨linked, beside, h⟩ := Checked.of_bind_eq_ok h
    rw [Checked.map_of_modify h fun _ => rfl, Checked.map_of_modify beside fun _ => rfl, List.map_append]
    exact List.prefix_append _ _

theorem fixed_close {stop : Nat} (h : b.close stop = .ok next) :
    next.slots.map Slot.fixed = b.slots.map Slot.fixed := by
  rw [close] at h
  split at h
  · obtain ⟨slots, ended, h⟩ := Checked.of_bind_eq_ok h
    cases h
    exact Checked.map_of_modify ended fun _ => rfl
  · cases h
    rfl

/-- One step adds nodes at the end, if any, and those before them stay where they are. -/
theorem fixed_step {call : BuildStep} (h : b.step call = .ok next) :
    b.slots.map Slot.fixed <+: next.slots.map Slot.fixed := by
  cases call with
  | leaf kind span =>
    obtain ⟨slots, attached, h⟩ := Checked.of_bind_eq_ok h
    cases h
    exact fixed_attach attached
  | enter kind start =>
    obtain ⟨slots, attached, h⟩ := Checked.of_bind_eq_ok h
    cases h
    exact fixed_attach attached
  | exit stop =>
    exact ⟨[], by rw [List.append_nil, fixed_close h]⟩

theorem fixed_closes {α : Type} {stop : Nat} {xs : List α}
    (h : xs.foldlM (fun acc _ => acc.close stop) b = .ok next) :
    next.slots.map Slot.fixed = b.slots.map Slot.fixed := by
  induction xs generalizing b with
  | nil =>
    cases h
    rfl
  | cons x xs ih =>
    obtain ⟨closed, here, rest⟩ := Checked.of_bind_eq_ok h
    rw [ih rest, fixed_close here]

theorem fixed_finish {a : Arena} (h : b.finish = .ok a) :
    a.slots.map Slot.fixed = b.slots.map Slot.fixed := by
  obtain ⟨done, closed, h⟩ := Checked.of_bind_eq_ok h
  cases h
  exact fixed_closes closed

end ArenaBuilder

/-- Whatever a builder is told, and whatever is still open when it finishes, its nodes keep what was said
of them when they were added. -/
theorem Builder.fixed_finish (b : Builder) :
    b.finish.cursors.map (·.slot.fixed) = b.flat.slots.map Slot.fixed := by
  rw [← ArenaBuilder.fixed_finish b.flat_finish, Document.slots_flat, List.map_map]
  rfl

/-- Steps in any order build one tree in document order. All links agree, the children of a node are
those that name it as their parent, and a walk along the links meets each node once; each further step
leaves every node that is there with its kind, its parent and its left neighbour. -/
theorem built_tree_is_preorder (text : String) (steps : List BuildStep) :
    ∃ b a, steps.foldlM ArenaBuilder.step (ArenaBuilder.start text) = .ok b ∧ b.finish = .ok a ∧
      a.Shows (Document.build text steps) ∧ a.Preorder ∧
      a.slots.map Slot.fixed = b.slots.map Slot.fixed ∧
      ∀ call, ∃ next, b.step call = .ok next ∧ b.slots.map Slot.fixed <+: next.slots.map Slot.fixed ∧
        (Document.build text steps).cursors.map (·.slot.fixed)
          <+: (Document.build text (steps ++ [call])).cursors.map (·.slot.fixed) := by
  let b := steps.foldl Builder.step (Builder.start text)
  have built := Builder.flat_steps (Builder.start text) steps
  have finished := b.flat_finish
  refine ⟨b.flat, b.finish.flat, built, finished, b.finish.flat_shows, b.finish.flat_preorder,
    ArenaBuilder.fixed_finish finished, fun call => ?_⟩
  have kept := ArenaBuilder.fixed_step (b.flat_step call)
  refine ⟨(b.step call).flat, b.flat_step call, kept, ?_⟩
  have longer : Document.build text (steps ++ [call]) = (b.step call).finish := by
    rw [Document.build, List.foldl_append]
    rfl
  rw [longer, Builder.fixed_finish]
  exact b.fixed_finish ▸ kept

end Keyfile
