import Keyfile.Proofs.Lexemes
import Keyfile.Proofs.Lint

/-! The tokens of a scanned text. They are its lexemes of some kind with their places, and the report of
the text is the one along its tokens. -/
namespace Keyfile
open Adjacency

/-- The tokens of lexemes that start at a byte offset. -/
def tokens (offset : Nat) : List Lexeme → List Token
  | [] => []
  | l :: ls =>
    let stop := offset + Text.bytes l.chars
    match l.kind? with
    | none => tokens stop ls
    | some kind => ⟨kind, ⟨offset, stop⟩, String.ofList l.chars⟩ :: tokens stop ls

@[simp] theorem tokens_nil (offset : Nat) : tokens offset [] = [] := rfl

lemma tokens_gap (offset : Nat) (chars : List Char) (ls : List Lexeme) :
    tokens offset (⟨none, chars⟩ :: ls) = tokens (offset + Text.bytes chars) ls := rfl

lemma tokens_kind (offset : Nat) (kind : Kind) (chars : List Char) (ls : List Lexeme) :
    tokens offset (⟨some kind, chars⟩ :: ls) =
      ⟨kind, ⟨offset, offset + Text.bytes chars⟩, String.ofList chars⟩ ::
        tokens (offset + Text.bytes chars) ls := rfl

theorem tokens_append (offset : Nat) (ls ms : List Lexeme) :
    tokens offset (ls ++ ms) = tokens offset ls ++ tokens (offset + Text.bytes (charsOf ls)) ms := by
  induction ls generalizing offset with
  | nil => rfl
  | cons l ls ih =>
    obtain ⟨kind?, chars⟩ := l
    cases kind? with
    | none => rw [List.cons_append, tokens_gap, ih, tokens_gap]; simp [Nat.add_assoc]
    | some kind => rw [List.cons_append, tokens_kind, ih, tokens_kind]; simp [Nat.add_assoc]

theorem tokens_add (offset n : Nat) (ls : List Lexeme) :
    tokens (offset + n) ls = (tokens offset ls).map (·.relocate (· + n)) := by
  induction ls generalizing offset with
  | nil => rfl
  | cons l ls ih =>
    obtain ⟨kind?, chars⟩ := l
    have place : offset + n + Text.bytes chars = offset + Text.bytes chars + n := by omega
    cases kind? with
    | none => rw [tokens_gap, tokens_gap, place, ih]
    | some kind => rw [tokens_kind, tokens_kind, place, ih]; rfl

lemma map_kind_tokens (offset : Nat) (ls : List Lexeme) :
    (tokens offset ls).map (·.kind) = ls.filterMap (·.kind?) := by
  induction ls generalizing offset with
  | nil => rfl
  | cons l ls ih =>
    obtain ⟨kind?, chars⟩ := l
    cases kind? with
    | none => rw [tokens_gap, ih]; rfl
    | some kind => rw [tokens_kind, List.map_cons, ih]; rfl

/-- Tokens lie within their text. -/
lemma tokens_bounds {offset : Nat} {ls : List Lexeme} {t : Token} (h : t ∈ tokens offset ls) :
    offset ≤ t.span.start ∧ t.span.start ≤ t.span.stop ∧
      t.span.stop ≤ offset + Text.bytes (charsOf ls) := by
  induction ls generalizing offset with
  | nil => cases h
  | cons l ls ih =>
    obtain ⟨kind?, chars⟩ := l
    rw [charsOf_cons, Text.bytes_append]
    cases kind? with
    | none =>
      have := ih h
      omega
    | some kind =>
      rcases List.mem_cons.mp h with rfl | h
      · simp only
        omega
      · have := ih h
        omega

/-- The node of a token. -/
def Adjacency.Token.node (t : Token) : Node := ⟨t.kind, t.span, []⟩

lemma layout_eq_map_tokens (offset : Nat) (ls : List Lexeme) :
    layout offset ls = (tokens offset ls).map Token.node := by
  induction ls generalizing offset with
  | nil => rfl
  | cons l ls ih =>
    obtain ⟨kind?, chars⟩ := l
    cases kind? with
    | none => exact ih _
    | some kind => exact congrArg (List.cons _) (ih _)

lemma content_scan (text : String) :
    (scan text).content = (tokens 0 (lexemes .fresh text.toList)).map Token.node :=
  layout_eq_map_tokens 0 _

lemma exists_token {text : String} {n : Node} (h : n ∈ (scan text).content) :
    ∃ t ∈ tokens 0 (lexemes .fresh text.toList), t.node = n := by
  rw [content_scan] at h
  exact List.mem_map.mp h

/-- A form of the scan that evaluates. -/
lemma scan_eq_within (text : String) :
    scan text = ⟨text, layout 0 (lexemesWithin (2 * text.toList.length + 1) .fresh text.toList)⟩ := by
  rw [scan, lexemes_eq_within]

/-- A token goes back to a lexeme. -/
lemma tokens_eq_append_cons {offset : Nat} {ls : List Lexeme} {ts us : List Token} {t : Token}
    (h : tokens offset ls = ts ++ t :: us) :
    ∃ before chars after, ls = before ++ ⟨some t.kind, chars⟩ :: after ∧
      tokens offset before = ts ∧
      t = ⟨t.kind, ⟨offset + Text.bytes (charsOf before),
        offset + Text.bytes (charsOf before) + Text.bytes chars⟩, String.ofList chars⟩ ∧
      tokens (offset + Text.bytes (charsOf before) + Text.bytes chars) after = us := by
  induction ls generalizing offset ts with
  | nil => simp at h
  | cons l ls ih =>
    obtain ⟨kind?, chars⟩ := l
    cases kind? with
    | none =>
      rw [tokens_gap] at h
      obtain ⟨before, chars', after, rfl, front, place, back⟩ := ih h
      refine ⟨⟨none, chars⟩ :: before, chars', after, rfl, front, ?_, ?_⟩
      · simpa [Nat.add_assoc] using place
      · simpa [Nat.add_assoc] using back
    | some kind =>
      rw [tokens_kind] at h
      cases ts with
      | nil =>
        obtain ⟨rfl, rest⟩ := List.cons.inj h
        exact ⟨[], chars, ls, rfl, rfl, by simp, by simpa using rest⟩
      | cons u ts =>
        obtain ⟨rfl, rest⟩ := List.cons.inj h
        obtain ⟨before, chars', after, rfl, front, place, back⟩ := ih rest
        refine ⟨⟨some kind, chars⟩ :: before, chars', after, rfl, ?_, ?_, ?_⟩
        · rw [tokens_kind, front]
        · simpa [Nat.add_assoc] using place
        · simpa [Nat.add_assoc] using back

lemma exists_lexeme_of_mem_tokens {offset : Nat} {ls : List Lexeme} {t : Token} (h : t ∈ tokens offset ls) :
    ∃ l ∈ ls, l.kind? = some t.kind := by
  obtain ⟨ts, us, split⟩ := List.append_of_mem h
  obtain ⟨before, chars, after, rfl, -⟩ := tokens_eq_append_cons split
  exact ⟨⟨some t.kind, chars⟩, by simp, rfl⟩

/-- Only the token of a value can be empty. -/
lemma start_lt_stop {offset : Nat} {s : LineState} {cs : List Char} {t : Token}
    (h : t ∈ tokens offset (lexemes s cs)) (kind : t.kind ∉ Kind.literals) : t.span.start < t.span.stop := by
  obtain ⟨ts, us, split⟩ := List.append_of_mem h
  obtain ⟨before, chars, after, whole, -, place, -⟩ := tokens_eq_append_cons split
  obtain ⟨rest, -, starts, -⟩ := lexemes_eq_cons (lexemes_eq_append whole).2
  have nonempty : chars ≠ [] := by
    apply starts.nonempty
    rintro literal member ⟨⟩
    exact kind member
  have size : 0 < Text.bytes chars := by
    obtain ⟨c, cs, rfl⟩ := List.exists_cons_of_ne_nil nonempty
    have := c.utf8Size_pos
    rw [Text.bytes_cons]
    omega
  rw [place]
  exact Nat.lt_add_of_pos_right size

lemma stop_le_start {offset : Nat} {ls : List Lexeme} {ts us : List Token} {t u : Token}
    (h : tokens offset ls = ts ++ t :: us) (later : u ∈ us) : t.span.stop ≤ u.span.start := by
  obtain ⟨before, chars, after, -, -, place, rfl⟩ := tokens_eq_append_cons h
  rw [place]
  exact (tokens_bounds later).1

/-- Two tokens that overlap are the same one. -/
lemma eq_of_overlap {offset : Nat} {ls : List Lexeme} {ts us ts' us' : List Token} {t t' : Token}
    (h : tokens offset ls = ts ++ t :: us) (h' : tokens offset ls = ts' ++ t' :: us')
    (left : t.span.start < t'.span.stop) (right : t'.span.start < t.span.stop) :
    ts = ts' ∧ t = t' ∧ us = us' := by
  rcases append_eq_append_cons (h.symm.trans h') with ⟨middle, rfl, rest⟩ | ⟨middle, rfl, -⟩
  · cases middle with
    | nil =>
      obtain ⟨rfl, rfl⟩ := List.cons.inj rest
      exact ⟨by simp, rfl, rfl⟩
    | cons m middle =>
      obtain ⟨rfl, rfl⟩ := List.cons.inj rest
      have := stop_le_start h (show t' ∈ middle ++ t' :: us' by simp)
      omega
  · rw [List.append_assoc, List.cons_append] at h
    have := stop_le_start h (show t ∈ middle ++ t :: us by simp)
    omega

section Content
variable {text : String} {nodes rest nodes' rest' : List Node} {n n' : Node}

/-- Only a value can be empty. -/
lemma start_lt_stop_of_content (h : n ∈ (scan text).content) (plain : n.kind.isLiteral = false) :
    n.span.start < n.span.stop := by
  obtain ⟨t, listed, rfl⟩ := exists_token h
  exact start_lt_stop listed (by simpa [Kind.isLiteral, Token.node] using plain)

/-- Two nodes of a scanned text that overlap are the same one. -/
lemma node_of_overlap (h : (scan text).content = nodes ++ n :: rest)
    (h' : (scan text).content = nodes' ++ n' :: rest') (left : n.span.start < n'.span.stop)
    (right : n'.span.start < n.span.stop) : nodes = nodes' ∧ n = n' ∧ rest = rest' := by
  rw [content_scan] at h h'
  obtain ⟨ts, _, split, rfl, tail⟩ := List.map_eq_append_iff.mp h
  obtain ⟨t, us, rfl, rfl, rfl⟩ := List.map_eq_cons_iff.mp tail
  obtain ⟨ts', _, split', rfl, tail'⟩ := List.map_eq_append_iff.mp h'
  obtain ⟨t', us', rfl, rfl, rfl⟩ := List.map_eq_cons_iff.mp tail'
  obtain ⟨rfl, rfl, rfl⟩ := eq_of_overlap split split' left right
  exact ⟨rfl, rfl, rfl⟩

/-- A node that is no value is known by where it stops. -/
lemma node_of_stop (h : (scan text).content = nodes ++ n :: rest) (h' : (scan text).content = nodes' ++ n' :: rest')
    (plain : n.kind.isLiteral = false) (plain' : n'.kind.isLiteral = false) (stop : n.span.stop = n'.span.stop) :
    nodes = nodes' ∧ n = n' ∧ rest = rest' := by
  have wide := start_lt_stop_of_content (n := n) (by rw [h]; simp) plain
  have wide' := start_lt_stop_of_content (n := n') (by rw [h']; simp) plain'
  exact node_of_overlap h h' (stop ▸ wide) (stop ▸ wide')

end Content

lemma le_start_of_mem_lint {schema : Schema} {offset : Nat} {ls : List Lexeme} {d : Diagnostic}
    (h : d ∈ lint schema (Text.bytes (charsOf ls) + offset) none none (tokens offset ls)) :
    offset ≤ d.span.start := by
  have moved := lint_relocate schema (Text.bytes (charsOf ls)) none none (· + offset) (tokens 0 ls)
  rw [← tokens_add, Nat.zero_add, Option.map_none] at moved
  rw [moved] at h
  obtain ⟨e, -, rfl⟩ := List.mem_map.mp h
  exact Nat.le_add_left offset e.span.start

section Edits
variable {text : String} {front middle back : List Char}

lemma apply_insertion (h : text.toList = front ++ back) (insert : String) :
    (TextEdit.insertion (Text.bytes front) insert).apply text =
      String.ofList (front ++ (insert.toList ++ back)) := by
  have parts : (Span.point (Text.bytes front)).parts? text.toList = some (front, [], back) := by
    rw [h]
    exact Span.parts?_append front [] back
  rw [TextEdit.apply, TextEdit.insertion, parts]
  simp

lemma bytes_apply_insertion (h : text.toList = front ++ back) (insert : String) :
    Text.bytes ((TextEdit.insertion (Text.bytes front) insert).apply text).toList =
      Text.bytes text.toList + Text.bytes insert.toList := by
  rw [apply_insertion h, String.toList_ofList, h]
  simp only [Text.bytes_append]
  omega

lemma apply_deletion (h : text.toList = front ++ (middle ++ back)) :
    (TextEdit.deletion ⟨Text.bytes front, Text.bytes front + Text.bytes middle⟩).apply text =
      String.ofList (front ++ back) := by
  rw [TextEdit.apply, TextEdit.deletion, h, Span.parts?_append]
  simp

end Edits

section Flat

/-- Nodes without children are visited one after the other. -/
lemma visitAll_eq_level (above : List Frame) (before ns : List Node) (flat : ∀ n ∈ ns, n.children = []) :
    Node.visitAll above before ns = Cursor.level above before ns := by
  induction ns generalizing before with
  | nil => rfl
  | cons n ns ih =>
    obtain ⟨kind, span, children⟩ := n
    have bare : children = [] := flat ⟨kind, span, children⟩ (by simp)
    subst bare
    rw [Node.visitAll, ih _ (fun m hm => flat m (by simp [hm]))]
    rfl

lemma children_layout (offset : Nat) (ls : List Lexeme) : ∀ n ∈ layout offset ls, n.children = [] := by
  induction ls generalizing offset with
  | nil => simp [layout]
  | cons l ls ih =>
    obtain ⟨kind?, chars⟩ := l
    cases kind? with
    | none => exact ih _
    | some kind =>
      intro n hn
      rcases List.mem_cons.mp hn with rfl | hn
      · rfl
      · exact ih _ n hn

/-- The tokens of the nodes on the level of a scanned text are those of its lexemes. -/
lemma map_token_level (d : Document) (above : List Frame) (before : List Node) {front : List Char}
    {ls : List Lexeme} (text : d.text.toList = front ++ charsOf ls) :
    (Cursor.level above before (layout (Text.bytes front) ls)).map d.token = tokens (Text.bytes front) ls := by
  induction ls generalizing before front with
  | nil => rfl
  | cons l ls ih =>
    obtain ⟨kind?, chars⟩ := l
    have rest : d.text.toList = (front ++ chars) ++ charsOf ls := by rw [text]; simp
    have place : Text.bytes front + Text.bytes chars = Text.bytes (front ++ chars) := by simp
    cases kind? with
    | none =>
      rw [tokens_gap, place, ← ih before rest, ← place]
      rfl
    | some kind =>
      have slice : d.slice ⟨Text.bytes front, Text.bytes front + Text.bytes chars⟩ = String.ofList chars := by
        rw [Document.slice, Span.slice?, text, charsOf_cons, Span.parts?_append]
        rfl
      have next := ih (⟨kind, ⟨Text.bytes front, Text.bytes front + Text.bytes chars⟩, []⟩ :: before) rest
      rw [tokens_kind, place, ← next, ← place, ← slice]
      rfl

/-- Apart from the root, the last two nodes read are the neighbours to the left. -/
def Behind (before : List Node) (older? last? : Option Cursor) : Prop :=
  (∀ c, last? = some c → c.kind ≠ .document → before[0]? = some c.node) ∧
    ∀ c, older? = some c → c.kind ≠ .document → before[1]? = some c.node

lemma Behind.key {before after : List Node} {above : List Frame} {node : Node} {older last : Cursor}
    (h : Behind before (some older) (some last)) (key : older.kind = .keyName) (assign : last.kind = .assign)
    (d : Document) : (Cursor.keyOfValue? ⟨node, before, after, above⟩).map d.token = some (d.token older) := by
  have first := h.1 last rfl (by rw [assign]; decide)
  have second := h.2 older rfl (by rw [key]; decide)
  obtain ⟨a, before, rfl⟩ : ∃ a rest, before = a :: rest := by
    cases before with
    | nil => simp at first
    | cons a rest => exact ⟨a, rest, rfl⟩
  obtain ⟨b, before, rfl⟩ : ∃ b rest, before = b :: rest := by
    cases before with
    | nil => simp at second
    | cons b rest => exact ⟨b, rest, rfl⟩
  simp only [List.getElem?_cons_zero, List.getElem?_cons_succ, Option.some.injEq] at first second
  subst first second
  simp only [Cursor.kind] at key assign
  simp [Cursor.keyOfValue?, Cursor.prevOfKind?, Cursor.prev?, Cursor.kind, assign, key, Option.filter,
    Document.token, Document.textOf, Cursor.span]

lemma findings_key (schema : Schema) {older? last? : Option Kind} (token : Token) {key? key?' : Option Token}
    (h : older? = some .keyName → last? = some .assign → key? = key?') :
    findings schema older? last? token key? = findings schema older? last? token key?' := by
  unfold findings
  split
  · rfl
  · rfl
  · split
    next value => rw [h value.1 value.2.1]
    next => rfl

/-- On one level, a value belongs to the token two places before it. -/
lemma reportIn_level (schema : Schema) (d : Document) {above : List Frame} {before after : List Node}
    {older? last? : Option Cursor} (h : Behind before older? last?) (node : Node) :
    Window.reportIn schema d ⟨older?, last?, some ⟨node, before, after, above⟩⟩ =
      remark schema (older?.map d.token) (last?.map d.token) (d.token ⟨node, before, after, above⟩) := by
  have key : (older?.map d.token).map (·.kind) = some .keyName →
      (last?.map d.token).map (·.kind) = some .assign →
      (Cursor.keyOfValue? ⟨node, before, after, above⟩).map d.token = older?.map d.token := by
    intro hk ha
    obtain ⟨older, rfl⟩ : ∃ c, older? = some c := by
      cases older? with
      | none => simp at hk
      | some c => exact ⟨c, rfl⟩
    obtain ⟨last, rfl⟩ : ∃ c, last? = some c := by
      cases last? with
      | none => simp at ha
      | some c => exact ⟨c, rfl⟩
    exact h.key (Option.some.inj hk) (Option.some.inj ha) d
  rw [remark_eq, ← findings_key schema _ key]
  cases last? <;> rfl

lemma windows_level (schema : Schema) (d : Document) (above : List Frame) {before : List Node}
    {older? last? : Option Cursor} (h : Behind before older? last?) (ns : List Node) :
    (windows older? last? (Cursor.level above before ns)).flatMap (Window.reportIn schema d) =
      lint schema d.size (older?.map d.token) (last?.map d.token)
        ((Cursor.level above before ns).map d.token) := by
  induction ns generalizing before older? last? with
  | nil =>
    rw [Cursor.level, windows, List.flatMap_cons, List.flatMap_nil, List.append_nil, List.map_nil, lint_nil]
    rfl
  | cons n ns ih =>
    have next : Behind (n :: before) last? (some ⟨n, before, ns, above⟩) := by
      refine ⟨?_, ?_⟩
      · rintro c ⟨⟩ -
        rfl
      · intro c hc kind
        exact h.1 c hc kind
    rw [Cursor.level, windows, List.flatMap_cons, ih next, List.map_cons, lint_cons, reportIn_level schema d h]
    rfl

end Flat

lemma map_token_scan (text : String) (above : List Frame) :
    (Cursor.level above [] (scan text).content).map (scan text).token = tokens 0 (lexemes .fresh text.toList) := by
  have whole : (scan text).text.toList = [] ++ charsOf (lexemes .fresh text.toList) := by
    rw [charsOf_lexemes]
    rfl
  exact map_token_level (scan text) above [] whole

/-- A token has the text that stands in its place. -/
lemma slice_of_mem_tokens {text : String} {t : Token} (h : t ∈ tokens 0 (lexemes .fresh text.toList)) :
    (scan text).slice t.span = t.text := by
  rw [← map_token_scan text []] at h
  obtain ⟨c, -, rfl⟩ := List.mem_map.mp h
  rfl

/-- The report of a scanned text is the one along its tokens. -/
theorem diagnose_scan (schema : Schema) (text : String) :
    diagnose schema (scan text) =
      lint schema (Text.bytes text.toList) none none (tokens 0 (lexemes .fresh text.toList)) := by
  have flat : ∀ n ∈ (scan text).content, n.children = [] := children_layout 0 _
  have level : (scan text).cursors = (scan text).rootCursor ::
      Cursor.level [⟨.document, ⟨0, (scan text).size⟩, [], []⟩] [] (scan text).content := by
    rw [← visitAll_eq_level _ _ _ flat]
    rfl
  have start : Behind [] none (some (scan text).rootCursor) := by
    refine ⟨?_, ?_⟩
    · rintro c ⟨⟩ kind
      exact absurd rfl kind
    · rintro c ⟨⟩
  -- the root itself is read first; nothing is said of it, and it waits for nothing
  rw [diagnose_eq_windows, level, windows, List.flatMap_cons, windows_level schema _ _ start,
    map_token_scan, lint_settled schema _ rfl]
  rfl

end Keyfile
