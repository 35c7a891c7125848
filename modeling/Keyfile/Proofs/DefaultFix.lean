import Keyfile.Proofs.ScannedTokens

/-! The fix for a value that is the default anyway. It takes the assignment out of its line; where this
stood first on the line, scan and report go on behind it as if it had not been there. -/
namespace Keyfile
open Adjacency

section Hint
variable (schema : Schema) (size : Nat)

/-- The hint is the first thing said of a value, and only its type can be complained of as well. -/
lemma check_redundant {rule : Rule} {value : String} {key span : Span} {first rest : List Diagnostic}
    {d : Diagnostic} (h : rule.check value key span = first ++ d :: rest) (kind : d.message = .defaultValue) :
    first = [] ∧ d = redundant ⟨key.start, span.stop⟩ ∧ rest = rule.checkType value span := by
  have no_type : ∀ e ∈ rule.checkType value span, e.message ≠ .defaultValue := by
    intro e he
    rcases (mem_checkType he).2 with type | type | type <;> rw [type] <;> simp
  rw [Rule.check] at h
  rcases append_eq_append_cons h with ⟨middle, rfl, later⟩ | ⟨middle, now, rfl⟩
  · exact absurd kind (no_type d (by rw [later]; simp))
  · obtain ⟨rfl, rfl, rfl | ⟨_, rfl, rfl | ⟨low, high, rfl⟩⟩⟩ := checkContent_eq_append_cons now
    · exact ⟨rfl, rfl, rfl⟩
    · cases kind
    · cases kind

/-- A hint is given at the value of an assignment, and is the first thing said there. -/
lemma report_redundant {w : Window Token} {first rest : List Diagnostic} {d : Diagnostic}
    (h : w.report schema size w.older? = first ++ d :: rest) (kind : d.message = .defaultValue) :
    ∃ key assign value rule, w = ⟨some key, some assign, some value⟩ ∧ key.kind = .keyName ∧
      assign.kind = .assign ∧ value.kind.isLiteral = true ∧ ruleOf? schema key.text = some rule ∧
      first = [] ∧ d = redundant ⟨key.span.start, value.span.stop⟩ ∧
      rest = rule.checkType (trimmed value.text) value.span := by
  obtain ⟨older?, last?, next?⟩ := w
  rw [Window.report] at h
  rcases append_eq_append_cons h with ⟨middle, rfl, found⟩ | ⟨middle, broken, -⟩
  · cases next? with
    | none => simp at found
    | some value =>
      obtain ⟨-, -, ⟨-, rfl⟩ | ⟨-, rfl⟩⟩ | ⟨key, rule, older, keyKind, lastKind, literal, ruled, checked⟩ :=
        findings_eq_append_cons schema found
      · cases kind
      · cases kind
      obtain ⟨rfl, rfl, rfl⟩ := check_redundant checked kind
      simp only at older
      subst older
      obtain ⟨assign, rfl, assignKind⟩ := Option.map_eq_some_iff.mp lastKind
      refine ⟨key, assign, value, rule, rfl, Option.some.inj keyKind, assignKind, literal, ruled, ?_, rfl, rfl⟩
      simp [interruption, assignKind, Window.nextKind?, literal]
  · cases last? with
    | none => simp at broken
    | some last =>
      rw [Option.map_some, Option.getD_some] at broken
      obtain ⟨-, -, ⟨-, rfl⟩ | ⟨-, -, rfl⟩ | ⟨-, -, rfl⟩ | ⟨-, -, rfl⟩⟩ := interruption_eq_append_cons broken <;>
        cases kind

/-- An assignment to a known key says nothing before its value. -/
lemma remarks_assignment {ts : List Token} {key assign : Token} {rule : Rule}
    (line : ∀ t ∈ ts.getLast?, t.kind = .lineBreak) (keyKind : key.kind = .keyName)
    (assignKind : assign.kind = .assign) (ruled : ruleOf? schema key.text = some rule) :
    remarks schema none none (ts ++ [key, assign]) = remarks schema none none ts := by
  obtain ⟨entry, known, -⟩ := Option.bind_eq_some_iff.mp ruled
  have key_quiet : remark schema none none key = [] := by
    rw [remark_eq]
    simp [findings, keyKind, known]
  have assign_quiet : ∀ older? : Option Token, remark schema older? (some key) assign = [] := by
    intro older?
    rw [remark_eq]
    simp [interruption, findings, keyKind, assignKind]
  rw [remarks_append, remarks, remark_settled schema (settled_of_lineStart line), remarks, key_quiet,
    assign_quiet, remarks]
  simp

end Hint

section Deletion

lemma afterAll_of_gaps {offset : Nat} {gaps : List Lexeme} (h : tokens offset gaps = []) (s : LineState) :
    s.afterAll gaps = s := by
  induction gaps generalizing offset with
  | nil => rfl
  | cons l gaps ih =>
    obtain ⟨kind?, chars⟩ := l
    cases kind? with
    | none => exact ih h
    | some kind => cases h

lemma after_literal {kind : Kind} (literal : kind.isLiteral = true) (inContainer afterAssign : Bool) :
    LineState.after ⟨inContainer, afterAssign⟩ (some kind) = ⟨inContainer, false⟩ := by
  cases kind <;> first | rfl | cases literal

/-- The lexemes of an assignment: after them the line goes on as at its start. -/
lemma tokens_eq_append_assignment {offset : Nat} {ls : List Lexeme} {us vs : List Token}
    {key assign value : Token} (h : tokens offset ls = us ++ key :: assign :: value :: vs)
    (keyKind : key.kind = .keyName) (assignKind : assign.kind = .assign)
    (literal : value.kind.isLiteral = true) :
    ∃ front middle back, ls = front ++ (middle ++ back) ∧ tokens offset front = us ∧
      LineState.fresh.afterAll middle = .fresh ∧ key.span.start = offset + Text.bytes (charsOf front) ∧
      value.span.stop = key.span.start + Text.bytes (charsOf middle) ∧ tokens value.span.stop back = vs := by
  obtain ⟨front, keyChars, rest, rfl, hfront, keyPlace, hrest⟩ := tokens_eq_append_cons h
  obtain ⟨gaps, assignChars, rest, rfl, hgaps, -, hrest⟩ :=
    tokens_eq_append_cons (show _ = [] ++ assign :: value :: vs from hrest)
  obtain ⟨gaps', valueChars, back, rfl, hgaps', valuePlace, hback⟩ :=
    tokens_eq_append_cons (show _ = [] ++ value :: vs from hrest)
  refine ⟨front, ⟨some .keyName, keyChars⟩ :: (gaps ++ ⟨some .assign, assignChars⟩ ::
    (gaps' ++ [⟨some value.kind, valueChars⟩])), back, ?_, hfront, ?_, ?_, ?_, ?_⟩
  · simp [keyKind, assignKind]
  · rw [LineState.afterAll_cons, LineState.afterAll_append, afterAll_of_gaps hgaps, LineState.afterAll_cons,
      LineState.afterAll_append, afterAll_of_gaps hgaps', LineState.afterAll_cons, LineState.afterAll_nil]
    exact after_literal literal false true
  · rw [keyPlace]
  · rw [valuePlace, keyPlace]
    simp only [charsOf_cons, charsOf_append, charsOf_nil, Text.bytes_append, List.append_nil]
    omega
  · rw [valuePlace]
    exact hback

/-- Lexemes taken out at the start of a line leave the others as they are, if the line goes on behind them
as at its start. -/
lemma lexemes_delete {cs : List Char} {front middle back : List Lexeme}
    (h : lexemes .fresh cs = front ++ (middle ++ back))
    (line : ∀ kind ∈ (front.filterMap (·.kind?)).getLast?, kind = .lineBreak)
    (resumed : LineState.fresh.afterAll middle = .fresh) :
    cs = charsOf front ++ (charsOf middle ++ charsOf back) ∧
      lexemes .fresh (charsOf front ++ charsOf back) = front ++ back := by
  obtain ⟨state, resume⟩ := lexemes_append_of_lineStart h line
  obtain ⟨text, rest⟩ := lexemes_eq_append h
  rw [state] at rest
  have behind := (lexemes_eq_append rest).2
  rw [resumed] at behind
  rw [charsOf_append] at text
  exact ⟨text, by rw [resume, behind]⟩

/-- Behind a value, the report starts anew. -/
lemma lint_literal (schema : Schema) (size : Nat) (older : Token) {value : Token}
    (literal : value.kind.isLiteral = true) (ts : List Token) :
    lint schema size (some older) (some value) ts = lint schema size none none ts := by
  apply lint_settled
  rw [Option.map_some, Option.map_some]
  cases hk : value.kind <;> first | rfl | (rw [hk] at literal; cases literal)

end Deletion

section Scanned
variable {schema : Schema} {text : String}

/-- Where in the scanned text a default is assigned, and what is said before and after the hint. -/
lemma scan_redundant {before after : List Diagnostic} {d : Diagnostic}
    (found : diagnose schema (scan text) = before ++ d :: after) (kind : d.message = .defaultValue) :
    ∃ us key assign value vs rule,
      tokens 0 (lexemes .fresh text.toList) = us ++ key :: assign :: value :: vs ∧ key.kind = .keyName ∧
      assign.kind = .assign ∧ value.kind.isLiteral = true ∧ ruleOf? schema key.text = some rule ∧
      d = redundant ⟨key.span.start, value.span.stop⟩ ∧
      before = remarks schema none none (us ++ [key, assign]) ∧
      after = rule.checkType (trimmed value.text) value.span ++
        lint schema (Text.bytes text.toList) none none vs := by
  rw [diagnose_scan] at found
  obtain ⟨ts, vs, first, rest, split, said, rfl, rfl⟩ := lint_eq_append_cons schema _ found
  obtain ⟨key, assign, value, rule, window, keyKind, assignKind, literal, ruled, rfl, rfl, rfl⟩ :=
    report_redundant schema _ said kind
  simp only [Window.mk.injEq] at window
  obtain ⟨older, last, next⟩ := window
  obtain ⟨us, rfl⟩ := slide_eq_some (Prod.ext older last)
  obtain ⟨vs, rfl⟩ : ∃ rest, vs = value :: rest := by
    cases vs with
    | nil => cases next
    | cons v vs => exact ⟨vs, by rw [Option.some.inj next]⟩
  refine ⟨us, key, assign, value, vs, rule, by simpa using split, keyKind, assignKind, literal, ruled, rfl,
    List.append_nil _, ?_⟩
  rw [last, further, lint_literal schema _ assign literal]

/-- The report with lexemes taken out at the start of a line. -/
lemma diagnose_delete (schema : Schema) {front middle back : List Lexeme}
    (h : lexemes .fresh text.toList = front ++ (middle ++ back))
    (line : ∀ t ∈ (tokens 0 front).getLast?, t.kind = .lineBreak)
    (resumed : LineState.fresh.afterAll middle = .fresh) :
    diagnose schema (scan ((TextEdit.deletion ⟨Text.bytes (charsOf front),
        Text.bytes (charsOf front) + Text.bytes (charsOf middle)⟩).apply text)) =
      remarks schema none none (tokens 0 front) ++
        (lint schema (Text.bytes text.toList) none none
          (tokens (Text.bytes (charsOf front) + Text.bytes (charsOf middle)) back)).map
          (·.relocate (· - Text.bytes (charsOf middle))) := by
  have lineKind : ∀ kind ∈ (front.filterMap (·.kind?)).getLast?, kind = .lineBreak := by
    rw [← map_kind_tokens 0, List.getLast?_map]
    simpa using line
  obtain ⟨cut, deleted⟩ := lexemes_delete h lineKind resumed
  have size : Text.bytes (charsOf front ++ charsOf back) =
      Text.bytes text.toList - Text.bytes (charsOf middle) := by
    rw [cut, Text.bytes_append, Text.bytes_append, Text.bytes_append]
    omega
  have moved : (tokens (Text.bytes (charsOf front) + Text.bytes (charsOf middle)) back).map
      (·.relocate (· - Text.bytes (charsOf middle))) = tokens (Text.bytes (charsOf front)) back := by
    rw [tokens_add, List.map_map]
    exact (List.map_congr_left fun t _ => by simp [Token.relocate, Span.relocate]).trans (List.map_id _)
  rw [apply_deletion cut, diagnose_scan, String.toList_ofList, deleted, size, tokens_append, Nat.zero_add,
    lint_append_of_settled schema _ (settled_of_lineStart line), ← lint_relocate, moved]
  rfl

/-- The token of a key is known by where it starts. -/
lemma key_of_content {nodes rest : List Node} {node : Node} {us vs : List Token} {key : Token}
    (split : tokens 0 (lexemes .fresh text.toList) = us ++ key :: vs) (keyKind : key.kind = .keyName)
    (content : (scan text).content = nodes ++ node :: rest) (nodeKind : node.kind = .keyName)
    (start : node.span.start = key.span.start) :
    nodes = us.map Token.node ∧ node = key.node ∧ rest = vs.map Token.node := by
  have content' : (scan text).content = us.map Token.node ++ key.node :: vs.map Token.node := by
    rw [content_scan, split, List.map_append, List.map_cons]
  have wide : ∀ n ∈ (scan text).content, n.kind = .keyName → n.span.start < n.span.stop := by
    intro n listed named
    exact start_lt_stop_of_content listed (by rw [named]; rfl)
  have left := wide node (by rw [content]; simp) nodeKind
  have right := wide key.node (by rw [content']; simp) keyKind
  have start : node.span.start = key.node.span.start := start
  exact node_of_overlap content content' (by omega) (by omega)

/-- The fix of a redundant default at the start of a line takes away what was said of this value, and
nothing else: all that was said behind it only moves. -/
theorem diagnose_fix_defaultValue {before after : List Diagnostic} {d : Diagnostic} {nodes rest : List Node}
    {key : Node} (found : diagnose schema (scan text) = before ++ d :: after)
    (kind : d.message = .defaultValue) (content : (scan text).content = nodes ++ key :: rest)
    (keyKind : key.kind = .keyName) (start : key.span.start = d.span.start)
    (line : ∀ node ∈ nodes.getLast?, node.kind = .lineBreak) :
    ∃ fix assign value more rule errors later, d.fixes = [fix] ∧ fix.label = .remove ∧
      rest = assign :: value :: more ∧ assign.kind = .assign ∧ value.kind.isLiteral = true ∧
      d.span = ⟨key.span.start, value.span.stop⟩ ∧ ruleOf? schema ((scan text).slice key.span) = some rule ∧
      errors = rule.checkType (trimmed ((scan text).slice value.span)) value.span ∧
      after = errors ++ later ∧ errors.length ≤ 1 ∧
      (∀ e ∈ errors, e.span = value.span ∧
        (e.message = .notFloat ∨ e.message = .notInt ∨ e.message = .notBool)) ∧
      (∀ e ∈ later, value.span.stop ≤ e.span.start) ∧
      diagnose schema (scan (fix.apply text)) =
        before ++ later.map (·.relocate (· - (value.span.stop - key.span.start))) := by
  obtain ⟨us, key, assign, value, vs, rule, split, named, assignKind, literal, ruled, rfl, rfl, rfl⟩ :=
    scan_redundant found kind
  -- the key of the hint is the given node, since no other key starts there
  obtain ⟨rfl, rfl, rfl⟩ := key_of_content split named content keyKind start
  obtain ⟨front, middle, back, whole, rfl, resumed, keyStart, valueStop, rfl⟩ :=
    tokens_eq_append_assignment split named assignKind literal
  have line : ∀ t ∈ (tokens 0 front).getLast?, t.kind = .lineBreak := by
    rw [List.getLast?_map] at line
    simpa [Token.node] using line
  have size : Text.bytes text.toList = Text.bytes (charsOf back) + value.span.stop := by
    rw [valueStop, keyStart, (lexemes_eq_append whole).1, charsOf_append, Text.bytes_append, Text.bytes_append]
    omega
  have width : value.node.span.stop - key.node.span.start = Text.bytes (charsOf middle) := by
    simp only [Token.node, valueStop]
    omega
  have keyText : (scan text).slice key.node.span = key.text := slice_of_mem_tokens (by simp [split])
  have valueText : (scan text).slice value.node.span = value.text := slice_of_mem_tokens (by simp [split])
  have again := diagnose_delete schema whole line resumed
  rw [← Nat.zero_add (Text.bytes (charsOf front)), ← keyStart, ← valueStop] at again
  refine ⟨⟨.remove, .deletion ⟨key.span.start, value.span.stop⟩⟩, assign.node, value.node,
    (tokens value.span.stop back).map Token.node, rule, rule.checkType (trimmed value.text) value.span,
    lint schema (Text.bytes text.toList) none none (tokens value.span.stop back), rfl, rfl, rfl, assignKind,
    literal, rfl, by rw [keyText, ruled], by rw [valueText]; rfl, rfl, ?_, fun e he => mem_checkType he, ?_, ?_⟩
  · rw [Rule.checkType]
    cases rule.valueType.bind (·.mismatch? (trimmed value.text).toList) <;> simp
  · intro e he
    rw [size] at he
    exact le_start_of_mem_lint he
  · rw [Fix.apply, again, width, remarks_assignment schema line named assignKind ruled]

/-- A key that is to be a boolean, with a quoted default. -/
def quotedDefault : Schema :=
  ⟨[], [⟨"k", "", ⟨.value, some ⟨some .bool, some "\"1\"", none, none⟩⟩, none⟩]⟩

/-- A quoted default is taken out between a broken line and a name that touches it. -/
theorem diagnose_fix_defaultValue_quoted :
    diagnose quotedDefault (scan "[a\n k=\"1\"j") =
        [.warning ⟨1, 2⟩ .containerUnknown,
          (Diagnostic.error ⟨2, 2⟩ .containerEndMissing).withFix .fix (.insertion 2 "]")] ++
        redundant ⟨4, 9⟩ ::
        [.error ⟨6, 9⟩ .notBool, .warning ⟨9, 10⟩ .keyUnknown,
          (Diagnostic.error ⟨10, 10⟩ .assignMissing).withFix .fix (.insertion 10 "=")] ∧
      ∃ fix, (redundant ⟨4, 9⟩).fixes = [fix] ∧
        diagnose quotedDefault (scan (fix.apply "[a\n k=\"1\"j")) =
          [.warning ⟨1, 2⟩ .containerUnknown,
            (Diagnostic.error ⟨2, 2⟩ .containerEndMissing).withFix .fix (.insertion 2 "]"),
            .warning ⟨4, 5⟩ .keyUnknown,
            (Diagnostic.error ⟨5, 5⟩ .assignMissing).withFix .fix (.insertion 5 "=")] := by
  refine (fun found => ⟨found, ?_⟩) (by rw [scan_eq_within]; decide +kernel)
  have content : (scan "[a\n k=\"1\"j").content =
      [⟨.containerStart, ⟨0, 1⟩, []⟩, ⟨.containerName, ⟨1, 2⟩, []⟩, ⟨.lineBreak, ⟨2, 3⟩, []⟩] ++
      ⟨.keyName, ⟨4, 5⟩, []⟩ ::
      [⟨.assign, ⟨5, 6⟩, []⟩, ⟨.string, ⟨6, 9⟩, []⟩, ⟨.keyName, ⟨9, 10⟩, []⟩] := by
    rw [scan_eq_within]
    rfl
  have name : (scan "[a\n k=\"1\"j").slice ⟨4, 5⟩ = "k" := by
    rw [scan_eq_within]
    decide +kernel
  have typed : (scan "[a\n k=\"1\"j").slice ⟨6, 9⟩ = "\"1\"" := by
    rw [scan_eq_within]
    decide +kernel
  obtain ⟨fix, assign, value, more, rule, errors, later, fixes, -, behind, -, -, -, ruled, rfl, split, -, -, -,
    again⟩ := diagnose_fix_defaultValue found rfl content rfl rfl (by simp)
  obtain ⟨rfl, rfl, rfl⟩ : _ = assign ∧ _ = value ∧ _ = more := by simpa only [List.cons.injEq] using behind
  have known : ruleOf? quotedDefault "k" = some ⟨some .bool, some "\"1\"", none, none⟩ := by decide +kernel
  obtain rfl : _ = rule := Option.some.inj (known.symm.trans (name ▸ ruled))
  have complaint : Rule.checkType ⟨some .bool, some "\"1\"", none, none⟩ (trimmed "\"1\"") ⟨6, 9⟩ =
      [.error ⟨6, 9⟩ .notBool] := by decide +kernel
  rw [typed, complaint] at split
  obtain ⟨-, rfl⟩ := List.cons.inj split
  refine ⟨fix, fixes, ?_⟩
  rw [again]
  decide +kernel

end Scanned

end Keyfile
