import Keyfile.Proofs.Consultation
import Keyfile.Proofs.KnownNames

/-! The range that completion of a name replaces. It is the last segment of the name that the cursor is in, also
where the cursor is in a segment before it; the range then starts behind the cursor. -/
namespace Keyfile

section Segments
variable {name front last : String}

/-- A name cut before its last segment: no point stands in the segment, and one stands before it unless the name
starts there. -/
structure LastSegment (name front last : String) : Prop where
  parted : name = front ++ last
  plain : '.' ∉ last.toList
  behind : front = "" ∨ ∃ parents, front = parents ++ "."

lemma lastSegment_of_segments {parents : List String} (split : segments name = parents ++ [last]) :
    ∃ front, LastSegment name front last ∧ (parents = [] → front = "") := by
  obtain ⟨pieces, piece, chars, listed⟩ : ∃ pieces piece, Text.pieces '.' name.toList = pieces ++ [piece] ∧
      parents = pieces.map String.ofList ∧ last = String.ofList piece := by
    obtain ⟨pieces, rest, whole, rfl, single⟩ := List.map_eq_append_iff.mp split
    obtain ⟨piece, rfl, rfl⟩ := List.map_eq_singleton_iff.mp single
    exact ⟨pieces, piece, whole, rfl, rfl⟩
  obtain ⟨rfl, rfl⟩ := listed
  have plain : '.' ∉ piece := Text.notMem_of_mem_pieces (chars ▸ List.mem_append_right _ List.mem_cons_self)
  have whole := Text.joined_pieces '.' name.toList
  rw [chars] at whole
  by_cases alone : pieces = []
  · subst alone
    refine ⟨"", ⟨?_, by simpa using plain, .inl rfl⟩, fun _ => rfl⟩
    rw [← String.ofList_toList (s := name), ← whole]
    simp [Text.joined]
  · rw [Text.joined_concat '.' alone] at whole
    refine ⟨String.ofList (Text.joined '.' pieces) ++ ".", ⟨?_, by simpa using plain, .inr ⟨_, rfl⟩⟩, ?_⟩
    · rw [← String.ofList_toList (s := name), ← whole]
      apply String.toList_inj.mp
      simp
    · intro none
      exact absurd (List.map_eq_nil_iff.mp none) alone

/-- The last segment starts at or before a cursor in the name exactly if all points of the name stand before it. -/
lemma LastSegment.start_le_iff (h : LastSegment name front last) {start offset : Nat} (inside : start < offset) :
    start + Text.bytes front.toList ≤ offset ↔
      ∀ before after, name = before ++ "." ++ after → start + Text.bytes before.toList < offset := by
  constructor
  · intro reached before after split
    have chars : front.toList ++ last.toList = before.toList ++ '.' :: after.toList := by
      have := congrArg String.toList (h.parted.symm.trans split)
      simpa using this
    rcases List.append_eq_append_iff.mp chars with ⟨more, -, rest⟩ | ⟨more, whole, rest⟩
    · refine absurd ?_ h.plain
      rw [rest]
      simp
    · cases more with
      | nil =>
        refine absurd ?_ h.plain
        rw [List.nil_append] at rest
        rw [← rest]
        simp
      | cons c more =>
        have point := c.utf8Size_pos
        rw [whole, Text.bytes_append, Text.bytes_cons] at reached
        omega
  · intro points
    rcases h.behind with rfl | ⟨parents, rfl⟩
    · simpa using inside.le
    · have point := points parents last (by rw [h.parted])
      have size : Text.bytes ".".toList = 1 := rfl
      rw [String.toList_append, Text.bytes_append, size]
      omega

end Segments

section Ranges

/-- The range that the options of a plan are for, if it comes to any. -/
def Plan.range? : Plan → Option (Nat × Option Nat)
  | .settled none => none
  | .settled (some completion) => some (completion.start, completion.stop)
  | .ask _ start stop _ => some (start, stop)

/-- Whoever is asked, the options are for the range of the plan. -/
lemma Plan.range?_of_run {σ ε : Type} {provider : Option (Provider (StateM σ) ε)} {plan : Plan}
    {completion : Completion} {before after : σ}
    (h : plan.run provider before = (.ok (some completion), after)) :
    plan.range? = some (completion.start, completion.stop) := by
  cases plan with
  | settled result =>
    obtain rfl : result = some completion := Except.ok.inj (congrArg Prod.fst h)
    rfl
  | ask query start stop kind =>
    cases provider with
    | none => cases congrArg Prod.fst h
    | some suggest =>
      cases answered : suggest query before with
      | mk outcome later =>
      cases outcome with
      | error e =>
        simp only [Plan.run, bind, StateT.bind, answered] at h
        cases congrArg Prod.fst h
      | ok labels =>
        simp only [Plan.run, bind, StateT.bind, answered] at h
        obtain rfl := Option.some.inj (Except.ok.inj (congrArg Prod.fst h))
        rfl

/-- The plan is for the last segment of a name. -/
def Plan.ReplacesLast (name : String) (span : Span) (plan : Plan) : Prop :=
  ∀ range, plan.range? = some range → ∃ front last, LastSegment name front last ∧
    range = (span.start + Text.bytes front.toList, some span.stop)

variable {c : Completer} {name : String} {span : Span}

lemma Plan.replacesLast_of_none {plan : Plan} (nothing : plan.range? = none) : plan.ReplacesLast name span := by
  intro range same
  rw [nothing] at same
  cases same

/-- A plan for a range from the last segment on, whatever it offers. -/
lemma Plan.replacesLast_of_range? {parents : List String} {last : String}
    (split : segments name = parents ++ [last]) {plan : Plan}
    (range : plan.range? = some (Completer.nameStart span name parents last, some span.stop)) :
    plan.ReplacesLast name span := by
  obtain ⟨front, segment, alone⟩ := lastSegment_of_segments split
  intro other same
  obtain rfl := Option.some.inj (range.symm.trans same)
  refine ⟨front, last, segment, congrArg (·, _) ?_⟩
  rw [Completer.nameStart]
  split_ifs with single
  · rw [alone single]
    rfl
  · rw [Completer.segmentStart, segment.parted, String.toList_append, Text.bytes_append]
    omega

lemma replacesLast_container : (c.container name span).ReplacesLast name span := by
  obtain ⟨-, last, parents, -, split, -⟩ := exists_last_segment name
  have plan : c.ContainerPlan name span parents last (c.container name span) := Completer.containerPlan split
  generalize c.container name span = p at plan ⊢
  cases plan with
  | unnamed | unknown => exact Plan.replacesLast_of_none rfl
  | listed | asked => exact Plan.replacesLast_of_range? split rfl

lemma replacesLast_key : (c.key name span).ReplacesLast name span := by
  obtain ⟨-, last, parents, -, split, -⟩ := exists_last_segment name
  have plan : c.KeyPlan name span parents last (c.key name span) := Completer.keyPlan split
  generalize c.key name span = p at plan ⊢
  cases plan with
  | unnamed | unknown => exact Plan.replacesLast_of_none rfl
  | listed | askedWildcard | askedKeys => exact Plan.replacesLast_of_range? split rfl

lemma range?_value {start : Nat} {key typed : String} {range : Nat × Option Nat}
    (h : (c.value start key typed).range? = some range) : range = (start, none) := by
  rw [Completer.value] at h
  cases resolved : resolve? c.schema.keys key with
  | none =>
    rw [resolved] at h
    cases h
  | some found =>
    rw [resolved] at h
    simp only at h
    split at h
    · cases h
      rfl
    · cases h
      rfl

lemma range?_afterAssign {node : Cursor} {range : Nat × Option Nat} (h : (c.afterAssign node).range? = some range) :
    range = (node.span.start + 1, none) := by
  rw [Completer.afterAssign] at h
  split at h
  · cases h
  · exact range?_value h

lemma range?_afterGap {assign : Cursor} {offset : Nat} {range : Nat × Option Nat}
    (h : (c.afterGap assign offset).range? = some range) : range = (offset, none) := by
  rw [Completer.afterGap] at h
  split at h
  · cases h
  · exact range?_value h

lemma range?_onValue {node : Cursor} {range : Nat × Option Nat} (h : (c.onValue node).range? = some range) :
    range = (node.span.start, none) ∧ ∃ key, node.keyOfValue? = some key := by
  rw [Completer.onValue] at h
  split at h
  · cases h
  next key found => exact ⟨range?_value h, key, found⟩

/-- Completion of a value leaves the end of its range to the cursor. -/
def Plan.EndsAtCursor (plan : Plan) : Prop := ∀ range, plan.range? = some range → range.2 = none

lemma endsAtCursor_afterAssign (node : Cursor) : (c.afterAssign node).EndsAtCursor := by
  intro range same
  rw [range?_afterAssign same]

lemma endsAtCursor_afterGap (assign : Cursor) (offset : Nat) : (c.afterGap assign offset).EndsAtCursor := by
  intro range same
  rw [range?_afterGap same]

lemma endsAtCursor_onValue (node : Cursor) : (c.onValue node).EndsAtCursor := by
  intro range same
  rw [(range?_onValue same).1]

/-- Where completion fixes the end of its range, it is on a name and replaces the last segment. -/
lemma replacesLast_of_range? {offset start stop : Nat} (h : (c.atOffset offset).range? = some (start, some stop)) :
    (c.document.innermost offset .before).kind.isName = true ∧
      ∃ front last, LastSegment (c.document.textOf (c.document.innermost offset .before)) front last ∧
        start = (c.document.innermost offset .before).span.start + Text.bytes front.toList ∧
        stop = (c.document.innermost offset .before).span.stop := by
  have fixed : ∀ plan : Plan, plan.range? = some (start, some stop) → ¬plan.EndsAtCursor := by
    intro plan range ends
    cases ends _ range
  have onNode : ∀ node : Cursor, (c.onNode node).range? = some (start, some stop) →
      node.kind.isName = true ∧ (c.onNode node).ReplacesLast (c.document.textOf node) node.span := by
    intro node range
    rw [Completer.onNode] at range ⊢
    split at range
    next kind => exact ⟨by rw [kind]; rfl, replacesLast_container⟩
    next kind => exact ⟨by rw [kind]; rfl, replacesLast_key⟩
    next => exact absurd (endsAtCursor_afterAssign node) (fixed _ range)
    next => exact absurd (endsAtCursor_onValue node) (fixed _ range)
  have range : (c.onNode (c.document.innermost offset .before)).range? = some (start, some stop) := by
    rw [Completer.atOffset] at h
    split at h
    · split at h
      · exact absurd (endsAtCursor_afterGap _ _) (fixed _ h)
      · exact h
    · exact h
  obtain ⟨named, replaces⟩ := onNode _ range
  obtain ⟨front, last, segment, same⟩ := replaces _ range
  simp only [Prod.mk.injEq, Option.some.injEq] at same
  exact ⟨named, front, last, segment, same⟩

end Ranges

section Replacing

/-- A name found around an offset is a node of the text, and the part of the text that its place names. -/
lemma name_around {text : String} {offset : Nat} {cursor : Cursor}
    (found : (scan text).innermost offset .before = cursor) (named : cursor.kind.isName = true) :
    cursor.node ∈ (scan text).content ∧ cursor.span.start < offset ∧ offset ≤ cursor.span.stop ∧
      ∃ a c : String, text = a ++ (scan text).textOf cursor ++ c ∧ cursor.span.start = Text.bytes a.toList ∧
        cursor.span.stop = Text.bytes (a ++ (scan text).textOf cursor).toList := by
  rw [innermost_eq_seekIn] at found
  cases sought : Node.seekIn (·.covers offset .before) [(scan text).rootCursor.frame] [] (scan text).content with
  | none =>
    rw [sought] at found
    subst found
    cases named
  | some node =>
    rw [sought, Option.getD_some] at found
    subst found
    obtain ⟨placed, covered⟩ := of_seekIn (children_layout 0 _) sought
    simp only [Span.covers, Bool.and_eq_true, decide_eq_true_eq] at covered
    refine ⟨placed, covered.1, covered.2, ?_⟩
    rw [layout_eq_map_tokens] at placed
    obtain ⟨t, listed, same⟩ := List.mem_map.mp placed
    have span : node.span = t.span := congrArg Node.span same.symm
    have kind : t.kind = node.kind := congrArg Node.kind same
    obtain ⟨-, a, c, whole, start, stop, -⟩ := tokens_rename listed (kind ▸ isName_iff.mp named)
    have name : (scan text).textOf node = t.text := by rw [Document.textOf, span, slice_of_mem_tokens listed]
    rw [name, span]
    exact ⟨a, c, whole, start, stop⟩

/-- What completion of a name replaces is the last segment of the name under the cursor. The cursor is never behind
it, and it is before it exactly if a point of the name stands at the cursor or follows it. -/
theorem name_completion_replaces_last_segment {σ ε : Type} (schema : Schema) (settings : CompletionSettings)
    (provider : Option (Provider (StateM σ) ε)) {text : String} {offset stop : Nat} {completion : Completion}
    {before after : σ}
    (offered : (Completer.atOffset ⟨schema, settings, scan text⟩ offset).run provider before =
      (.ok (some completion), after))
    (fixed : completion.stop = some stop) :
    ∃ node ∈ (scan text).content, ((scan text).innermost offset .before).node = node ∧
      (node.kind = .containerName ∨ node.kind = .keyName) ∧
      node.span.start ≤ completion.start ∧ completion.start ≤ stop ∧ stop = node.span.stop ∧ offset ≤ stop ∧
      ∃ a front last c : String, text = a ++ front ++ last ++ c ∧
        node.span.start = Text.bytes a.toList ∧ completion.start = Text.bytes (a ++ front).toList ∧
        stop = Text.bytes (a ++ front ++ last).toList ∧ LastSegment (front ++ last) front last ∧
        (completion.start ≤ offset ↔ ∀ parents further, front ++ last = parents ++ "." ++ further →
          node.span.start + Text.bytes parents.toList < offset) := by
  have range := Plan.range?_of_run offered
  rw [fixed] at range
  obtain ⟨named, front, last, segment, start, rfl⟩ := replacesLast_of_range? range
  obtain ⟨placed, low, high, a, c, whole, atStart, atStop⟩ := name_around rfl named
  rw [segment.parted, ← String.append_assoc] at whole atStop
  rw [segment.parted] at segment
  have first : completion.start = Text.bytes (a ++ front).toList := by
    rw [start, atStart, String.toList_append, Text.bytes_append]
  have bounds : completion.start ≤ Text.bytes (a ++ front ++ last).toList := by
    simp only [first, String.toList_append, Text.bytes_append]
    omega
  refine ⟨_, placed, rfl, isName_iff.mp named, ?_, ?_, rfl, high, a, front, last, c, whole, atStart, first, atStop,
    segment, ?_⟩
  · rw [start]
    exact Nat.le_add_right _ _
  · exact atStop ▸ bounds
  · rw [start]
    exact segment.start_le_iff low

/-- The application is asked for the last segment while the cursor is in the first one. -/
theorem name_completion_replaces_last_segment_asked :
    (Completer.atOffset ⟨nestedKeys, ⟨10, false⟩, scan "[ö]\nnet.qü"⟩ 6).run
        (some (recording (ε := Unit) fun _ _ => .ok ["eth"])) [] =
      (.ok (some ⟨9, some 12, [⟨"eth", none, .type⟩]⟩), [⟨.wildcard, "net.any", "qü"⟩]) ∧
    ∃ node ∈ (scan "[ö]\nnet.qü").content, node.span.start ≤ 9 ∧ 12 = node.span.stop ∧
      ∃ a front last c : String, "[ö]\nnet.qü" = a ++ front ++ last ++ c ∧
        9 = Text.bytes (a ++ front).toList ∧ 12 = Text.bytes (a ++ front ++ last).toList ∧
        LastSegment (front ++ last) front last := by
  have plan : Completer.atOffset ⟨nestedKeys, ⟨10, false⟩, scan "[ö]\nnet.qü"⟩ 6 =
      .ask ⟨.wildcard, "net.any", "qü"⟩ 9 (some 12) .type := by
    rw [scan_eq_within]
    decide +kernel
  refine (fun offered => ⟨offered, ?_⟩) (by rw [plan, run_ask_recording]; rfl)
  obtain ⟨node, placed, -, -, low, -, stop, -, a, front, last, c, whole, -, first, final, segment, -⟩ :=
    name_completion_replaces_last_segment nestedKeys ⟨10, false⟩ _ offered rfl
  exact ⟨node, placed, low, stop, a, front, last, c, whole, first, final, segment⟩

/-- With the cursor in the first segment of a name, the range to replace starts behind the cursor. -/
theorem name_completion_behind_cursor :
    ∃ completion stop,
      (Completer.atOffset ⟨nestedKeys, ⟨256, true⟩, scan "net.a"⟩ 2).run (none : Option (Provider Id Unit)) =
        pure (.ok (some completion)) ∧
      completion.stop = some stop ∧ ¬(completion.start ≤ 2 ∧ 2 ≤ stop) := by
  have plan : Completer.atOffset ⟨nestedKeys, ⟨256, true⟩, scan "net.a"⟩ 2 =
      .settled (some ⟨4, some 5, [⟨"any", some "Any", .wildcard⟩]⟩) := by
    rw [scan_eq_within]
    decide +kernel
  exact ⟨_, 5, congrArg (Plan.run none) plan, rfl, by decide⟩

end Replacing

end Keyfile
