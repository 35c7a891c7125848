import Keyfile.Proofs.ReplacedSegment
import Keyfile.Proofs.ValueCompletion

/-! The range that completion of a value replaces. It is empty or the beginning of the value that is typed, unless the
cursor is in a line break or a comment right behind the equals sign; the range then starts with that node. -/
namespace Keyfile
open Adjacency

section Nodes
variable {text : String}

lemma chars_assign {s : LineState} {cs : List Char} {l : Lexeme} (h : l ∈ lexemes s cs)
    (kind : l.kind? = some .assign) : l.chars = ['='] := by
  obtain ⟨s', rest, starts⟩ := exists_starts_of_mem h
  obtain ⟨c, cs, -, hr, first⟩ := starts.inversion
  rw [kind] at hr first
  have sign : c = '=' := by
    rw [Role.ofKind] at hr
    unfold role at hr
    split_ifs at hr
    assumption
  rw [← first, sign]
  rfl

/-- A node of a text is the part of the text that its place names. -/
lemma parts_of_mem_content {n : Node} (h : n ∈ (scan text).content) :
    ∃ a middle c : String, text = a ++ middle ++ c ∧
      n = ⟨n.kind, ⟨Text.bytes a.toList, Text.bytes (a ++ middle).toList⟩, []⟩ := by
  obtain ⟨t, listed, rfl⟩ := exists_token h
  obtain ⟨front, chars, back, whole, -, place⟩ := parts_of_mem_tokens listed
  rw [charsOf_lexemes] at whole
  refine ⟨String.ofList front, String.ofList chars, String.ofList back, ?_, ?_⟩
  · apply String.toList_inj.mp
    simp [whole]
  · simp [Token.node, place]

/-- Two nodes of a text that overlap are the same one. -/
lemma eq_of_mem_content {m n : Node} (hm : m ∈ (scan text).content) (hn : n ∈ (scan text).content)
    (left : m.span.start < n.span.stop) (right : n.span.start < m.span.stop) : m = n := by
  obtain ⟨t, listed, rfl⟩ := exists_token hm
  obtain ⟨u, listed', rfl⟩ := exists_token hn
  obtain ⟨ts, us, split⟩ := List.append_of_mem listed
  obtain ⟨ts', us', split'⟩ := List.append_of_mem listed'
  rw [(eq_of_overlap split split' left right).2.1]

/-- The innermost node at an offset is the root, or the node that the offset lies in or right behind. -/
lemma innermost_scan_cases (text : String) (offset : Nat) :
    (scan text).innermost offset .before = (scan text).rootCursor ∨
      ∃ nodes n rest, (scan text).content = nodes ++ n :: rest ∧ n.span.start < offset ∧ offset ≤ n.span.stop ∧
        (scan text).innermost offset .before = ⟨n, nodes.reverse, rest, [(scan text).rootCursor.frame]⟩ := by
  rw [innermost_eq_seekIn]
  cases sought : Node.seekIn (·.covers offset .before) [(scan text).rootCursor.frame] [] (scan text).content with
  | none => exact .inl rfl
  | some cursor =>
    obtain ⟨placed, covered⟩ := of_seekIn (children_layout 0 _) sought
    simp only [Span.covers, Bool.and_eq_true, decide_eq_true_eq] at covered
    obtain ⟨nodes, rest, content⟩ := List.append_of_mem placed
    refine .inr ⟨nodes, cursor.node, rest, content, covered.1, covered.2, ?_⟩
    have found := innermost_scan content covered.1 covered.2
    rwa [innermost_eq_seekIn, sought] at found

lemma stop_of_assign {n : Node} (h : n ∈ (scan text).content) (kind : n.kind = .assign) :
    n.span.stop = n.span.start + 1 := by
  obtain ⟨t, listed, rfl⟩ := exists_token h
  obtain ⟨front, chars, back, -, lexeme, place⟩ := parts_of_mem_tokens listed
  have sign : chars = ['='] := chars_assign lexeme (congrArg some kind)
  rw [Token.node, place, sign]
  rfl

/-- What follows an equals sign is a value, or it ends the line. -/
lemma kind_behind_assign (offset : Nat) (inContainer : Bool) (cs : List Char) :
    ∀ t ∈ (tokens offset (lexemes ⟨inContainer, true⟩ cs)).head?,
      t.kind.isLiteral = true ∨ t.kind = .lineBreak ∨ t.kind = .comment := by
  induction cs generalizing offset with
  | nil => simp [lexemes]
  | cons c cs ih =>
    cases gap : isGap c with
    | true =>
      rw [show c :: cs = [c] ++ cs from rfl, lexemes_gaps _ (by simpa using gap), tokens_gaps]
      exact ih _
    | false =>
      obtain ⟨ls, first⟩ := lexemes_cons ⟨inContainer, true⟩ c cs
      by_cases value : isValueChar c = true
      · obtain ⟨kind, literal, named⟩ := valueLexeme_kind? (c :: cs)
        rw [first, role_value value gap, Role.lexeme]
        cases read : valueLexeme (c :: cs) with
        | mk kind? chars =>
          rw [read] at named
          obtain rfl : kind? = some kind := named
          rw [tokens_kind]
          rintro t ⟨⟩
          exact .inl (by simpa [Kind.isLiteral] using literal)
      · exact fun t ht => .inr (lineOver_of_stop offset ⟨inContainer, true⟩ (by simpa using value) t ht)

/-- A node behind the equals sign of a key is a value, or it ends the line. -/
lemma kind_of_assigned {nodes rest : List Node} {key assign node : Node}
    (content : (scan text).content = nodes ++ key :: assign :: node :: rest) (keyKind : key.kind = .keyName)
    (assignKind : assign.kind = .assign) :
    node.kind.isLiteral = true ∨ node.kind = .lineBreak ∨ node.kind = .comment := by
  have placed : assign ∈ (scan text).content := by simp [content]
  obtain ⟨a, sign, c, whole, place⟩ := parts_of_mem_content placed
  have cut : text.toList = (a ++ sign).toList ++ c.toList := by rw [← String.toList_append, ← whole]
  obtain ⟨-, -, -, inContainer, -, -, -, read⟩ := scan_assigned content keyKind assignKind cut (by rw [place])
  obtain ⟨t, ts, split, rfl, -⟩ := List.map_eq_cons_iff.mp read.symm
  exact kind_behind_assign _ inContainer c.toList t (by rw [split]; rfl)

end Nodes

section Ranges
variable {c : Completer}

lemma range?_atOffset {offset : Nat} {range : Nat × Option Nat} (h : (c.atOffset offset).range? = some range) :
    range = (offset, none) ∨ (c.onNode (c.document.innermost offset .before)).range? = some range := by
  rw [Completer.atOffset] at h
  split at h
  · split at h
    · exact .inl (range?_afterGap h)
    · exact .inr h
  · exact .inr h

/-- On a node, completion for a range that reaches to the cursor is behind an equals sign or on a value. -/
lemma range?_onNode {node : Cursor} {start : Nat} (h : (c.onNode node).range? = some (start, none)) :
    node.kind = .assign ∧ start = node.span.start + 1 ∨
      start = node.span.start ∧ ∃ key, node.keyOfValue? = some key := by
  rw [Completer.onNode] at h
  split at h
  next =>
    obtain ⟨_, _, -, fixed⟩ := replacesLast_container _ h
    cases fixed
  next =>
    obtain ⟨_, _, -, fixed⟩ := replacesLast_key _ h
    cases fixed
  next kind => exact .inl ⟨kind, congrArg Prod.fst (range?_afterAssign h)⟩
  next =>
    obtain ⟨range, key, found⟩ := range?_onValue h
    exact .inr ⟨congrArg Prod.fst range, key, found⟩

/-- The key that a node is the value of stands two places before it. -/
lemma before_of_keyOfValue? {node key : Cursor} (h : node.keyOfValue? = some key) :
    ∃ assign nodes, node.before = assign :: key.node :: nodes ∧ assign.kind = .assign ∧ key.node.kind = .keyName := by
  obtain ⟨assign, assigned, keyed⟩ := Option.bind_eq_some_iff.mp h
  obtain ⟨previous, assignKind⟩ := Option.filter_eq_some_iff.mp assigned
  obtain ⟨first, keyKind⟩ := Option.filter_eq_some_iff.mp keyed
  rw [Cursor.prev?] at previous first
  cases left : node.before with
  | nil =>
    rw [left] at previous
    cases previous
  | cons a before =>
    rw [left] at previous
    obtain rfl := Option.some.inj previous
    cases before with
    | nil => cases first
    | cons k nodes =>
      obtain rfl := Option.some.inj first
      exact ⟨a, nodes, rfl, beq_iff_eq.mp assignKind, beq_iff_eq.mp keyKind⟩

/-- A range that reaches to the cursor is empty, or it starts with the node under the cursor, and this stands right
behind the equals sign of a key. -/
lemma openRange_cases {schema : Schema} {settings : CompletionSettings} {text : String} {offset start : Nat}
    (h : (Completer.atOffset ⟨schema, settings, scan text⟩ offset).range? = some (start, none)) :
    start = offset ∨ ∃ nodes key assign node rest,
      (scan text).content = nodes ++ key :: assign :: node :: rest ∧ key.kind = .keyName ∧ assign.kind = .assign ∧
        node.span.start = start ∧ start < offset ∧ offset ≤ node.span.stop := by
  rcases range?_atOffset h with range | h
  · exact .inl (congrArg Prod.fst range)
  rcases innermost_scan_cases text offset with root | ⟨nodes, n, rest, content, low, high, found⟩
  · rw [root] at h
    rcases range?_onNode h with ⟨kind, -⟩ | ⟨-, key, none⟩
    · cases kind
    · cases none
  · rw [found] at h
    rcases range?_onNode h with ⟨kind, rfl⟩ | ⟨rfl, key, value⟩
    · left
      have member : n ∈ (scan text).content := content ▸ List.mem_append_cons_self
      have width := stop_of_assign member kind
      simp only [Cursor.span]
      omega
    · right
      obtain ⟨assign, before, left, assignKind, keyKind⟩ := before_of_keyOfValue? value
      obtain rfl : nodes = before.reverse ++ [key.node, assign] := by
        have := congrArg List.reverse left
        simpa using this
      exact ⟨before.reverse, key.node, assign, n, rest, by simpa using content, keyKind, assignKind, rfl, low, high⟩

end Ranges

section Replacing

/-- The range from `start` to `offset` is empty, or it is the beginning of a value. -/
def OnlyTyped (text : String) (start offset : Nat) : Prop :=
  start = offset ∨ ∃ (kind : Kind) (a value c : String), kind.isLiteral = true ∧ text = a ++ value ++ c ∧
    ⟨kind, ⟨Text.bytes a.toList, Text.bytes (a ++ value).toList⟩, []⟩ ∈ (scan text).content ∧
    start = Text.bytes a.toList ∧ offset ≤ Text.bytes (a ++ value).toList

/-- A byte of a line break or of a comment lies in the range from `start` to `offset`. -/
def HoldsLineEnd (text : String) (start offset : Nat) : Prop :=
  ∃ node ∈ (scan text).content, (node.kind = .lineBreak ∨ node.kind = .comment) ∧
    ∃ byte, start ≤ byte ∧ byte < offset ∧ node.span.covers byte .after = true

variable {text : String} {node : Node} {offset : Nat}

lemma onlyTyped_of_literal (placed : node ∈ (scan text).content) (literal : node.kind.isLiteral = true)
    (high : offset ≤ node.span.stop) : OnlyTyped text node.span.start offset := by
  obtain ⟨a, value, c, whole, same⟩ := parts_of_mem_content placed
  rw [same] at placed high ⊢
  exact .inr ⟨node.kind, a, value, c, literal, whole, placed, rfl, high⟩

/-- No other node begins where a node lies. -/
lemma kind_of_onlyTyped (placed : node ∈ (scan text).content) (low : node.span.start < offset)
    (high : offset ≤ node.span.stop) (typed : OnlyTyped text node.span.start offset) : node.kind.isLiteral = true := by
  rcases typed with empty | ⟨kind, a, value, c, literal, -, listed, start, stop⟩
  · omega
  · have same := eq_of_mem_content placed listed (by simp only; omega) (by simp only; omega)
    rwa [same]

lemma kind_of_holdsLineEnd (placed : node ∈ (scan text).content) (high : offset ≤ node.span.stop)
    (other : HoldsLineEnd text node.span.start offset) : node.kind = .lineBreak ∨ node.kind = .comment := by
  obtain ⟨m, listed, kind, byte, first, last, covered⟩ := other
  simp only [Span.covers, Bool.and_eq_true, decide_eq_true_eq] at covered
  have same := eq_of_mem_content placed listed (by omega) (by omega)
  rwa [same]

/-- Completion of a value replaces only what was typed of the value, exactly if it replaces no part of a line break
and of no comment. It does so only with the cursor in a line break or a comment that stands right behind the equals
sign of a key. -/
theorem value_completion_replaces_typed_iff {σ ε : Type} (schema : Schema) (settings : CompletionSettings)
    (provider : Option (Provider (StateM σ) ε)) {text : String} {offset : Nat} {completion : Completion}
    {before after : σ}
    (offered : (Completer.atOffset ⟨schema, settings, scan text⟩ offset).run provider before =
      (.ok (some completion), after))
    (reaching : completion.stop = none) :
    completion.start ≤ offset ∧
      (OnlyTyped text completion.start offset ↔ ¬HoldsLineEnd text completion.start offset) ∧
      (HoldsLineEnd text completion.start offset → ∃ nodes key assign node rest,
        (scan text).content = nodes ++ key :: assign :: node :: rest ∧ key.kind = .keyName ∧
          assign.kind = .assign ∧ (node.kind = .lineBreak ∨ node.kind = .comment) ∧
          node.span.start = completion.start ∧ completion.start < offset ∧ offset ≤ node.span.stop) := by
  have range := Plan.range?_of_run offered
  rw [reaching] at range
  rcases openRange_cases range with empty | ⟨nodes, key, assign, node, rest, content, keyKind, assignKind, start,
    low, high⟩
  · have nothing : ¬HoldsLineEnd text completion.start offset := by
      rintro ⟨-, -, -, byte, first, last, -⟩
      omega
    exact ⟨empty.le, iff_of_true (.inl empty) nothing, fun held => absurd held nothing⟩
  · have placed : node ∈ (scan text).content := by simp [content]
    rw [← start] at low ⊢
    refine ⟨low.le, ?_, ?_⟩
    · rcases kind_of_assigned content keyKind assignKind with literal | other
      · refine iff_of_true (onlyTyped_of_literal placed literal high) fun held => ?_
        rcases kind_of_holdsLineEnd placed high held with kind | kind <;> rw [kind] at literal <;> cases literal
      · refine iff_of_false (fun typed => ?_) (not_not_intro ⟨node, placed, other, node.span.start, le_rfl, low, ?_⟩)
        · have literal := kind_of_onlyTyped placed low high typed
          rcases other with kind | kind <;> rw [kind] at literal <;> cases literal
        · simp only [Span.covers, Bool.and_eq_true, decide_eq_true_eq]
          omega
    · intro held
      exact ⟨nodes, key, assign, node, rest, content, keyKind, assignKind, kind_of_holdsLineEnd placed high held, rfl,
        low, high⟩

/-- One key without a rule, so that its values are left to the application. -/
def openKey : Schema := ⟨[], [⟨"k", "K", ⟨.value, none⟩, none⟩]⟩

/-- What the application offers for a value replaces what was typed of it; the cursor is inside the value. -/
theorem value_completion_replaces_typed_asked :
    (Completer.atOffset ⟨openKey, ⟨256, true⟩, scan "# ä\nk = öl ; c"⟩ 11).run
        (some (recording (ε := Unit) fun _ _ => .ok ["öse"])) [] =
      (.ok (some ⟨9, none, [⟨"öse", none, .text⟩]⟩), [⟨.value, "k", "öl"⟩]) ∧
    OnlyTyped "# ä\nk = öl ; c" 9 11 := by
  have plan : Completer.atOffset ⟨openKey, ⟨256, true⟩, scan "# ä\nk = öl ; c"⟩ 11 =
      .ask ⟨.value, "k", "öl"⟩ 9 none .text := by
    rw [scan_eq_within]
    decide +kernel
  have content : (scan "# ä\nk = öl ; c").content =
      [⟨.comment, ⟨0, 4⟩, []⟩, ⟨.lineBreak, ⟨4, 5⟩, []⟩, ⟨.keyName, ⟨5, 6⟩, []⟩, ⟨.assign, ⟨7, 8⟩, []⟩,
        ⟨.string, ⟨9, 12⟩, []⟩, ⟨.comment, ⟨13, 16⟩, []⟩] := by
    rw [scan_eq_within]
    rfl
  have placed : ⟨.string, ⟨9, 12⟩, []⟩ ∈ (scan "# ä\nk = öl ; c").content := by simp [content]
  refine (fun offered => ⟨offered, ?_⟩) (by rw [plan, run_ask_recording]; rfl)
  apply (value_completion_replaces_typed_iff openKey ⟨256, true⟩ _ offered rfl).2.1.mpr
  intro held
  rcases kind_of_holdsLineEnd placed (by decide) held with kind | kind <;> cases kind

/-- With the cursor behind the line break that follows an equals sign, the line break is replaced. -/
theorem value_completion_replaces_lineBreak :
    (Completer.atOffset ⟨conditionedKey "in:a,b", ⟨256, true⟩, scan "k=\nx=1"⟩ 3).run
        (none : Option (Provider Id Unit)) =
      pure (.ok (some ⟨2, none, [⟨"a", none, .choice⟩, ⟨"b", none, .choice⟩]⟩)) ∧
    ¬OnlyTyped "k=\nx=1" 2 3 ∧ Span.slice? ⟨2, 3⟩ "k=\nx=1".toList = some ['\n'] := by
  have plan : Completer.atOffset ⟨conditionedKey "in:a,b", ⟨256, true⟩, scan "k=\nx=1"⟩ 3 =
      .settled (some ⟨2, none, [⟨"a", none, .choice⟩, ⟨"b", none, .choice⟩]⟩) := by
    rw [scan_eq_within]
    decide +kernel
  have content : (scan "k=\nx=1").content =
      [⟨.keyName, ⟨0, 1⟩, []⟩, ⟨.assign, ⟨1, 2⟩, []⟩, ⟨.lineBreak, ⟨2, 3⟩, []⟩, ⟨.keyName, ⟨3, 4⟩, []⟩,
        ⟨.assign, ⟨4, 5⟩, []⟩, ⟨.number, ⟨5, 6⟩, []⟩] := by
    rw [scan_eq_within]
    rfl
  have placed : ⟨.lineBreak, ⟨2, 3⟩, []⟩ ∈ (scan "k=\nx=1").content := by simp [content]
  refine ⟨congrArg (Plan.run none) plan, fun typed => ?_, by decide +kernel⟩
  cases kind_of_onlyTyped placed (by decide) (by decide) typed

end Replacing
end Keyfile
