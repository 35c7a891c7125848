import Keyfile.Document.Assignment
import Keyfile.Document.Seek
import Keyfile.Proofs.Arena.Building

/-! Ways through a flat tree. A slot of the layout of a document is a node in its place, with
neighbours written as positions; so following the links of the layout never leaves it and finds what
the document shows. -/
namespace Keyfile

namespace Cursor

/-- A node in its place, with its surroundings as positions. -/
def slot (c : Cursor) : Slot where
  kind := c.kind
  span := c.span
  parent := c.parent?.map position
  prev := c.prev?.map position
  next := c.next?.map position
  first := c.firstChild?.map position
  last := c.children.getLast?.map position

@[simp] theorem kind_slot (c : Cursor) : c.slot.kind = c.kind := rfl
@[simp] theorem span_slot (c : Cursor) : c.slot.span = c.span := rfl
@[simp] theorem prev_slot (c : Cursor) : c.slot.prev = c.prev?.map position := rfl
@[simp] theorem next_slot (c : Cursor) : c.slot.next = c.next?.map position := rfl
@[simp] theorem first_slot (c : Cursor) : c.slot.first = c.firstChild?.map position := rfl

@[simp] theorem precedingCount_cons (above : List Frame) (n : Node) (before : List Node) :
    precedingCount above (n :: before) = precedingCount above before + n.size := by
  cases above <;> simp [precedingCount, Node.sizes] <;> omega

/-- Position of the nearest enclosing node. -/
def parentPosition : List Frame → Option Nat
  | [] => none
  | f :: fs => some (precedingCount fs f.before)

/-- Position of the nearest of the siblings to the left. -/
def prevPosition (above : List Frame) : List Node → Option Nat
  | [] => none
  | _ :: ns => some (precedingCount above ns)

theorem map_position_parent? (c : Cursor) : c.parent?.map position = parentPosition c.above := by
  rw [parent?]
  cases c.above <;> rfl

theorem map_position_prev? (c : Cursor) : c.prev?.map position = prevPosition c.above c.before := by
  rw [prev?]
  cases c.before <;> rfl

theorem map_position_next? (c : Cursor) :
    c.next?.map position = if c.after.isEmpty then none else some (c.position + c.node.size) := by
  rw [next?]
  cases c.after <;> simp [position]

theorem map_position_firstChild? (c : Cursor) :
    c.firstChild?.map position = firstIndex (c.position + 1) c.node.children := by
  rw [firstChild?, children]
  cases c.node.children <;> simp [level, firstIndex, position, precedingCount, frame, Node.sizes]

theorem map_position_getLast?_level (above : List Frame) (before ns : List Node) :
    (level above before ns).getLast?.map position = lastIndex (precedingCount above before) ns := by
  induction ns generalizing before with
  | nil => rfl
  | cons n ns ih =>
    rw [level, lastIndex, ← precedingCount_cons, ← ih, List.getLast?_cons]
    cases (level above (n :: before) ns).getLast? <;> rfl

end Cursor

mutual
/-- The nodes inside a node take consecutive positions, in the order in which they are visited. -/
theorem Node.map_position_visit (n : Node) (above : List Frame) (before after : List Node) :
    (n.visit above before after).map Cursor.position
      = List.range' (Cursor.precedingCount above before) n.size := by
  obtain ⟨kind, span, children⟩ := n
  rw [Node.visit, List.map_cons, Node.map_position_visitAll children, Node.size, List.range'_succ]
  rfl
theorem Node.map_position_visitAll (ns : List Node) (above : List Frame) (before : List Node) :
    (Node.visitAll above before ns).map Cursor.position
      = List.range' (Cursor.precedingCount above before) (Node.sizes ns) := by
  cases ns with
  | nil => rfl
  | cons n ns =>
    rw [Node.visitAll, List.map_append, Node.map_position_visit n, Node.map_position_visitAll ns,
      Node.sizes, Cursor.precedingCount_cons, ← List.range'_append_1]
end

mutual
/-- The layout of a node is made of the slots of the nodes visited inside it. -/
theorem Node.map_slot_visit (n : Node) (above : List Frame) (before after : List Node) :
    (n.visit above before after).map Cursor.slot
      = n.slots (Cursor.parentPosition above) (Cursor.prevPosition above before)
          (if after.isEmpty then none else some (Cursor.precedingCount above before + n.size))
          (Cursor.precedingCount above before) := by
  obtain ⟨kind, span, children⟩ := n
  rw [Node.visit, List.map_cons, Node.map_slot_visitAll children, Node.slots]
  simp only [Cursor.slot, Cursor.map_position_parent?, Cursor.map_position_prev?,
    Cursor.map_position_next?, Cursor.map_position_firstChild?, Cursor.children,
    Cursor.map_position_getLast?_level]
  rfl
theorem Node.map_slot_visitAll (ns : List Node) (above : List Frame) (before : List Node) :
    (Node.visitAll above before ns).map Cursor.slot
      = Node.slotsAll (Cursor.parentPosition above) (Cursor.prevPosition above before) none
          (Cursor.precedingCount above before) ns := by
  cases ns with
  | nil => rfl
  | cons n ns =>
    rw [Node.visitAll, List.map_append, Node.map_slot_visit n, Node.map_slot_visitAll ns, Node.slotsAll,
      Cursor.precedingCount_cons]
    rfl
end

/-! ### Neighbours of visited nodes -/

section Visited

variable {above : List Frame} {before after : List Node} {c x : Cursor}

theorem Node.self_mem_visit (n : Node) : ⟨n, before, after, above⟩ ∈ n.visit above before after := by
  cases n
  exact List.mem_cons_self

theorem Cursor.mem_level (above : List Frame) (before ms : List Node) (n : Node) (ns : List Node) :
    ⟨n, ms.reverse ++ before, ns, above⟩ ∈ Cursor.level above before (ms ++ n :: ns) := by
  induction ms generalizing before with
  | nil => exact List.mem_cons_self
  | cons m ms ih =>
    apply List.mem_cons_of_mem
    simpa using ih (m :: before)

/-- All nodes on the level of a node, itself among them. -/
def Cursor.siblings (c : Cursor) : List Cursor :=
  Cursor.level c.above [] (c.before.reverse ++ c.node :: c.after)

theorem Cursor.next_mem_siblings (h : c.next? = some x) : x ∈ c.siblings := by
  obtain ⟨node, before, after, above⟩ := c
  cases after with
  | nil => cases h
  | cons n ns =>
    cases h
    simpa [Cursor.siblings] using Cursor.mem_level above [] (before.reverse ++ [node]) n ns

theorem Cursor.prev_mem_siblings (h : c.prev? = some x) : x ∈ c.siblings := by
  obtain ⟨node, before, after, above⟩ := c
  cases before with
  | nil => cases h
  | cons n ns =>
    cases h
    simpa [Cursor.siblings] using Cursor.mem_level above [] ns.reverse n (node :: after)

/-- The nodes of a level are among those visited on it, in the same order. -/
theorem Cursor.level_sublist_visitAll (above : List Frame) (before ns : List Node) :
    (Cursor.level above before ns).Sublist (Node.visitAll above before ns) := by
  induction ns generalizing before with
  | nil => exact .slnil
  | cons n ns ih =>
    obtain ⟨kind, span, children⟩ := n
    rw [Cursor.level, Node.visitAll, Node.visit, List.cons_append]
    exact ((ih _).trans (List.sublist_append_right _ _)).cons_cons _

theorem Cursor.mem_visitAll_of_mem_level {ns : List Node} (h : c ∈ Cursor.level above before ns) :
    c ∈ Node.visitAll above before ns :=
  (Cursor.level_sublist_visitAll above before ns).subset h

mutual
theorem Node.children_subset_visit (n : Node) (above : List Frame) (before after : List Node)
    (h : c ∈ n.visit above before after) : c.children ⊆ n.visit above before after := by
  obtain ⟨kind, span, children⟩ := n
  rw [Node.visit] at h ⊢
  rcases List.mem_cons.1 h with rfl | inside
  · exact fun x child => List.mem_cons_of_mem _ (Cursor.mem_visitAll_of_mem_level child)
  · exact fun x child => List.mem_cons_of_mem _ (Node.children_subset_visitAll children _ _ inside child)
theorem Node.children_subset_visitAll (ns : List Node) (above : List Frame) (before : List Node)
    (h : c ∈ Node.visitAll above before ns) : c.children ⊆ Node.visitAll above before ns := by
  cases ns with
  | nil => cases h
  | cons n ns =>
    rw [Node.visitAll] at h ⊢
    rcases List.mem_append.1 h with here | later
    · exact fun x child => List.mem_append_left _ (Node.children_subset_visit n _ _ _ here child)
    · exact fun x child => List.mem_append_right _ (Node.children_subset_visitAll ns _ _ later child)
end

mutual
/-- All nodes on the level of a visited node are visited, unless it is the outermost one. -/
theorem Node.siblings_subset_visit (n : Node) (above : List Frame) (before after : List Node)
    (h : c ∈ n.visit above before after) :
    c = ⟨n, before, after, above⟩ ∨ c.siblings ⊆ n.visit above before after := by
  obtain ⟨kind, span, children⟩ := n
  rw [Node.visit] at h ⊢
  rcases List.mem_cons.1 h with rfl | inside
  · exact .inl rfl
  · right
    rcases Node.siblings_subset_visitAll children _ _ inside with whole | part
    · exact fun x on => List.mem_cons_of_mem _ (Cursor.mem_visitAll_of_mem_level (whole ▸ on))
    · exact fun x on => List.mem_cons_of_mem _ (part on)
theorem Node.siblings_subset_visitAll (ns : List Node) (above : List Frame) (before : List Node)
    (h : c ∈ Node.visitAll above before ns) :
    c.siblings = Cursor.level above [] (before.reverse ++ ns) ∨
      c.siblings ⊆ Node.visitAll above before ns := by
  cases ns with
  | nil => cases h
  | cons n ns =>
    rw [Node.visitAll] at h ⊢
    rcases List.mem_append.1 h with here | later
    · rcases Node.siblings_subset_visit n _ _ _ here with rfl | part
      · exact .inl rfl
      · exact .inr fun x on => List.mem_append_left _ (part on)
    · rcases Node.siblings_subset_visitAll ns _ _ later with whole | part
      · exact .inl (by simpa using whole)
      · exact .inr fun x on => List.mem_append_right _ (part on)
end

mutual
theorem Node.size_le_of_mem_visit (n : Node) (above : List Frame) (before after : List Node)
    (h : c ∈ n.visit above before after) : c.node.size ≤ n.size := by
  obtain ⟨kind, span, children⟩ := n
  rw [Node.visit] at h
  rcases List.mem_cons.1 h with rfl | inside
  · exact Nat.le_refl _
  · have := Node.size_le_of_mem_visitAll children _ _ inside
    rw [Node.size]
    omega
theorem Node.size_le_of_mem_visitAll (ns : List Node) (above : List Frame) (before : List Node)
    (h : c ∈ Node.visitAll above before ns) : c.node.size ≤ Node.sizes ns := by
  cases ns with
  | nil => cases h
  | cons n ns =>
    rw [Node.visitAll] at h
    rw [Node.sizes]
    rcases List.mem_append.1 h with here | later
    · have := Node.size_le_of_mem_visit n _ _ _ here
      omega
    · have := Node.size_le_of_mem_visitAll ns _ _ later
      omega
end

end Visited

namespace Document

variable {d : Document} {c x : Cursor}

theorem rootCursor_mem (d : Document) : d.rootCursor ∈ d.cursors := d.root.self_mem_visit

theorem children_subset (h : c ∈ d.cursors) : c.children ⊆ d.cursors :=
  d.root.children_subset_visit _ _ _ h

theorem next_mem (h : c ∈ d.cursors) (next : c.next? = some x) : x ∈ d.cursors := by
  rcases d.root.siblings_subset_visit _ _ _ h with rfl | level
  · cases next
  · exact level (Cursor.next_mem_siblings next)

theorem prev_mem (h : c ∈ d.cursors) (prev : c.prev? = some x) : x ∈ d.cursors := by
  rcases d.root.siblings_subset_visit _ _ _ h with rfl | level
  · cases prev
  · exact level (Cursor.prev_mem_siblings prev)

theorem length_cursors (d : Document) : d.cursors.length = d.root.size := by
  have positions := congrArg List.length (d.root.map_position_visit [] [] [])
  simpa [cursors] using positions

theorem map_position_cursors (d : Document) : d.cursors.map Cursor.position = List.range d.cursors.length := by
  rw [length_cursors, List.range_eq_range']
  exact d.root.map_position_visit [] [] []

theorem getElem?_cursors (h : c ∈ d.cursors) : d.cursors[c.position]? = some c := by
  obtain ⟨k, bound, rfl⟩ := List.getElem_of_mem h
  have place := congrArg (·[k]?) d.map_position_cursors
  simp [bound] at place
  rw [place]
  simp [bound]

theorem slots_flat (d : Document) : d.flat.slots = d.cursors.map Cursor.slot :=
  (d.root.map_slot_visit [] [] []).symm

end Document

/-! ### Following links -/

namespace Arena

def slot (a : Arena) (i : Nat) : Checked Slot := Checked.get a.slots i

/-- The text of a node; empty when its range is no part of the text. -/
def textOf (a : Arena) (i : Nat) : Checked String := do
  let s ← a.slot i
  pure (String.ofList ((s.span.slice? a.text.toList).getD []))

/-- The neighbour to the left, if it has a certain kind. -/
def prevOfKind? (a : Arena) (i : Nat) (kind : Kind) : Checked (Option Nat) := do
  let s ← a.slot i
  match s.prev with
  | none => pure none
  | some p => do
    let t ← a.slot p
    pure (if t.kind == kind then some p else none)

/-- The key that a node is the value of. -/
def keyOfValue? (a : Arena) (i : Nat) : Checked (Option Nat) := do
  match ← a.prevOfKind? i .assign with
  | none => pure none
  | some assign => a.prevOfKind? assign .keyName

/-- The first node that qualifies, from one on along its right neighbours. -/
def firstCovering (a : Arena) (covers : Span → Bool) : Nat → Option Nat → Checked (Option Nat)
  | _, none => pure none
  | 0, some _ => throw .endless
  | fuel + 1, some i => do
    let s ← a.slot i
    if covers s.span then pure (some i) else a.firstCovering covers fuel s.next

/-- Descends into the first child that qualifies, as long as there is one. -/
def descend (a : Arena) (covers : Span → Bool) : Nat → Nat → Checked Nat
  | 0, _ => throw .endless
  | fuel + 1, i => do
    let s ← a.slot i
    match ← a.firstCovering covers a.slots.length s.first with
    | none => pure i
    | some child => a.descend covers fuel child

/-- The innermost node around an offset. -/
def innermost (a : Arena) (offset : Nat) (bias : Bias) : Checked Nat :=
  a.descend (·.covers offset bias) a.slots.length 0

/-- The last node in a row, from one on along its right neighbours, that ends no later than an offset;
`found` when there is none. -/
def lastUpTo (a : Arena) (offset : Nat) : Nat → Option Nat → Option Nat → Checked (Option Nat)
  | _, none, found => pure found
  | 0, some _, _ => throw .endless
  | fuel + 1, some i, found => do
    let s ← a.slot i
    if s.span.stop ≤ offset then a.lastUpTo offset fuel s.next (some i) else pure found

end Arena

namespace Document

variable {d : Document} {c : Cursor}

theorem slot_flat (h : c ∈ d.cursors) : d.flat.slot c.position = .ok c.slot := by
  apply Checked.get_eq
  rw [slots_flat, List.getElem?_map, getElem?_cursors h]
  rfl

theorem textOf_flat (h : c ∈ d.cursors) : d.flat.textOf c.position = .ok (d.textOf c) := by
  rw [Arena.textOf, slot_flat h]
  rfl

theorem prevOfKind?_flat (h : c ∈ d.cursors) (kind : Kind) :
    d.flat.prevOfKind? c.position kind = .ok ((c.prevOfKind? kind).map Cursor.position) := by
  rw [Arena.prevOfKind?, slot_flat h, Checked.ok_bind, Cursor.prevOfKind?]
  cases prev : c.prev? with
  | none => simp [prev]
  | some p =>
    simp only [Cursor.prev_slot, prev, Option.map_some, slot_flat (prev_mem h prev), Checked.ok_bind,
      Cursor.kind_slot, Checked.pure_eq, Option.filter_some]
    by_cases hit : (p.kind == kind) = true <;> simp [hit]

theorem prevOfKind?_mem {p : Cursor} {kind : Kind} (h : c ∈ d.cursors) (prev : c.prevOfKind? kind = some p) :
    p ∈ d.cursors := by
  obtain ⟨left, -⟩ := Option.filter_eq_some_iff.1 prev
  exact prev_mem h left

theorem keyOfValue?_flat (h : c ∈ d.cursors) :
    d.flat.keyOfValue? c.position = .ok (c.keyOfValue?.map Cursor.position) := by
  rw [Arena.keyOfValue?, prevOfKind?_flat h, Checked.ok_bind, Cursor.keyOfValue?]
  cases assign : c.prevOfKind? .assign with
  | none => rfl
  | some p => exact prevOfKind?_flat (prevOfKind?_mem h assign) .keyName

theorem keyOfValue?_mem {key : Cursor} (h : c ∈ d.cursors) (found : c.keyOfValue? = some key) :
    key ∈ d.cursors := by
  obtain ⟨assign, before, found⟩ := Option.bind_eq_some_iff.1 found
  exact prevOfKind?_mem (prevOfKind?_mem h before) found

/-- The right neighbour of the first node of a level is the first of the rest. -/
theorem next?_eq_head?_level (above : List Frame) (before : List Node) (n : Node) (ns : List Node) :
    Cursor.next? ⟨n, before, ns, above⟩ = (Cursor.level above (n :: before) ns).head? := by
  cases ns <;> rfl

theorem firstCovering_flat (covers : Span → Bool) (above : List Frame) (before ns : List Node) (fuel : Nat)
    (enough : ns.length ≤ fuel) (h : Cursor.level above before ns ⊆ d.cursors) :
    d.flat.firstCovering covers fuel ((Cursor.level above before ns).head?.map Cursor.position)
      = .ok (((Cursor.level above before ns).find? (covers ·.span)).map Cursor.position) := by
  induction ns generalizing before fuel with
  | nil => cases fuel <;> rfl
  | cons n ns ih =>
    obtain ⟨fuel, rfl⟩ := Nat.exists_eq_add_one_of_ne_zero (Nat.ne_zero_of_lt enough)
    have here : ⟨n, before, ns, above⟩ ∈ d.cursors := h List.mem_cons_self
    have next := ih (n :: before) fuel (Nat.le_of_succ_le_succ enough) fun x later =>
      h (List.mem_cons_of_mem _ later)
    rw [← next?_eq_head?_level] at next
    rw [Cursor.level, List.head?_cons, Option.map_some, Arena.firstCovering, slot_flat here,
      Checked.ok_bind, List.find?_cons, Cursor.span_slot, Cursor.next_slot, next]
    cases covers (Cursor.span ⟨n, before, ns, above⟩) <;> rfl

theorem lastUpTo_flat (offset : Nat) (above : List Frame) (before ns : List Node) (fuel : Nat)
    (enough : ns.length ≤ fuel) (h : Cursor.level above before ns ⊆ d.cursors) (found : Option Nat) :
    d.flat.lastUpTo offset fuel ((Cursor.level above before ns).head?.map Cursor.position) found
      = .ok ((((Cursor.level above before ns).takeWhile (·.span.stop ≤ offset)).getLast?.map
          Cursor.position).or found) := by
  induction ns generalizing before fuel found with
  | nil => cases fuel <;> rfl
  | cons n ns ih =>
    obtain ⟨fuel, rfl⟩ := Nat.exists_eq_add_one_of_ne_zero (Nat.ne_zero_of_lt enough)
    have here : ⟨n, before, ns, above⟩ ∈ d.cursors := h List.mem_cons_self
    have next := ih (n :: before) fuel (Nat.le_of_succ_le_succ enough) (fun x later =>
      h (List.mem_cons_of_mem _ later))
    rw [← next?_eq_head?_level] at next
    rw [Cursor.level, List.head?_cons, Option.map_some, Arena.lastUpTo, slot_flat here,
      Checked.ok_bind, List.takeWhile_cons, Cursor.span_slot, Cursor.next_slot, next]
    by_cases hit : (Cursor.span ⟨n, before, ns, above⟩).stop ≤ offset
    · simp only [hit, if_true, decide_true, List.getLast?_cons]
      cases ((Cursor.level above (n :: before) ns).takeWhile (·.span.stop ≤ offset)).getLast? <;> rfl
    · simp [hit]

end Document

/-! ### Descending -/

/-- Descends from a node in its place. -/
def Cursor.seek (covers : Span → Bool) (c : Cursor) : Cursor :=
  c.node.seek covers c.above c.before c.after

theorem Node.seekIn_eq_find? (covers : Span → Bool) (above : List Frame) (before ns : List Node) :
    Node.seekIn covers above before ns
      = ((Cursor.level above before ns).find? (covers ·.span)).map (·.seek covers) := by
  induction ns generalizing before with
  | nil => rfl
  | cons n ns ih =>
    rw [Node.seekIn, Cursor.level, List.find?_cons, ih]
    cases hit : covers n.span <;> simp [Cursor.span, hit, Cursor.seek]

/-- Descending goes on in the first child that qualifies and else stays. -/
theorem Cursor.seek_eq (covers : Span → Bool) (c : Cursor) :
    c.seek covers = ((c.children.find? (covers ·.span)).map (·.seek covers)).getD c := by
  obtain ⟨⟨kind, span, children⟩, before, after, above⟩ := c
  rw [Cursor.seek, Node.seek, Node.seekIn_eq_find?]
  rfl

theorem Node.size_eq (n : Node) : n.size = Node.sizes n.children + 1 := by
  cases n
  rfl

theorem Cursor.size_lt_of_mem_children {c x : Cursor} (h : x ∈ c.children) : x.node.size < c.node.size := by
  have inside := Node.size_le_of_mem_visitAll _ _ _ (Cursor.mem_visitAll_of_mem_level h)
  rw [c.node.size_eq]
  exact Nat.lt_succ_of_le inside

theorem Node.length_le_sizes (ns : List Node) : ns.length ≤ Node.sizes ns := by
  induction ns with
  | nil => exact Nat.le_refl 0
  | cons n ns ih =>
    rw [List.length_cons, Node.sizes, n.size_eq]
    omega

namespace Document

variable {d : Document} {c : Cursor}

theorem length_slots_flat (d : Document) : d.flat.slots.length = d.root.size :=
  d.root.length_slots _ _ _ _

theorem length_children_le (h : c ∈ d.cursors) : c.node.children.length ≤ d.flat.slots.length := by
  have whole := d.root.size_le_of_mem_visit _ _ _ h
  have part := Node.length_le_sizes c.node.children
  rw [c.node.size_eq] at whole
  rw [length_slots_flat]
  omega

/-- Descending along the links ends where descending in the tree does, within as many steps as the node
has nodes inside it. -/
theorem descend_flat (covers : Span → Bool) (fuel : Nat) (enough : c.node.size ≤ fuel)
    (h : c ∈ d.cursors) : d.flat.descend covers fuel c.position = .ok (c.seek covers).position := by
  induction fuel generalizing c with
  | zero => simp [c.node.size_eq] at enough
  | succ fuel ih =>
    have hit := firstCovering_flat covers _ _ _ _ (length_children_le h) (children_subset h)
    rw [Arena.descend, slot_flat h, Checked.ok_bind, Cursor.first_slot, Cursor.firstChild?, Cursor.children,
      hit, Checked.ok_bind, Cursor.seek_eq, Cursor.children]
    cases found : (Cursor.level (c.frame :: c.above) [] c.node.children).find? (covers ·.span) with
    | none => rfl
    | some child =>
      have listed : child ∈ c.children := List.mem_of_find?_eq_some found
      have smaller := Cursor.size_lt_of_mem_children listed
      exact ih (by omega) (children_subset h listed)

theorem innermost_flat (d : Document) (offset : Nat) (bias : Bias) :
    d.flat.innermost offset bias = .ok (d.innermost offset bias).position := by
  have enough : d.rootCursor.node.size ≤ d.flat.slots.length := Nat.le_of_eq d.length_slots_flat.symm
  exact descend_flat (·.covers offset bias) _ enough d.rootCursor_mem

/-- The node where descending ends belongs to the document, and it qualifies unless it is the node where
descending began. -/
theorem seek_spec (covers : Span → Bool) (h : c ∈ d.cursors) :
    c.seek covers ∈ d.cursors ∧ (c.seek covers = c ∨ covers (c.seek covers).span) := by
  induction size : c.node.size using Nat.strongRecOn generalizing c with
  | _ n ih =>
    rw [Cursor.seek_eq]
    cases found : c.children.find? (covers ·.span) with
    | none => exact ⟨h, .inl rfl⟩
    | some child =>
      have listed : child ∈ c.children := List.mem_of_find?_eq_some found
      have smaller : child.node.size < n := size ▸ Cursor.size_lt_of_mem_children listed
      obtain ⟨inside, same | hit⟩ := ih _ smaller (children_subset h listed) rfl
      · exact ⟨inside, .inr (by simpa [same] using List.find?_some found)⟩
      · exact ⟨inside, .inr hit⟩

theorem innermost_mem (d : Document) (offset : Nat) (bias : Bias) : d.innermost offset bias ∈ d.cursors :=
  (seek_spec _ d.rootCursor_mem).1

theorem covers_innermost (d : Document) (offset : Nat) (bias : Bias)
    (inner : (d.innermost offset bias).kind ≠ .document) :
    (d.innermost offset bias).span.covers offset bias := by
  rcases (seek_spec (·.covers offset bias) d.rootCursor_mem).2 with root | hit
  · exact absurd (congrArg Cursor.kind root) inner
  · exact hit

end Document

end Keyfile
