import Keyfile.Proofs.Windows

/-! The report along a list of tokens, where the key of a value is the token two places before it. It
can be cut at any place; after a token that waits for nothing, it does not know what came before; and
when all places are moved, so are those of the diagnostics. -/
namespace Keyfile

/-- A span with both ends moved. -/
def Span.relocate (f : Nat → Nat) (s : Span) : Span := ⟨f s.start, f s.stop⟩

def TextEdit.relocate (f : Nat → Nat) (e : TextEdit) : TextEdit := { e with span := e.span.relocate f }

def Fix.relocate (f : Nat → Nat) (x : Fix) : Fix := { x with edit := x.edit.relocate f }

/-- A diagnostic with its own place and those of its fixes moved. -/
def Diagnostic.relocate (f : Nat → Nat) (d : Diagnostic) : Diagnostic :=
  { d with span := d.span.relocate f, fixes := d.fixes.map (·.relocate f) }

/-- Messages about the order of tokens; all others are about names and values. -/
def Message.isStructural : Message → Bool
  | .containerNameMissing => true
  | .containerEndMissing => true
  | .assignMissing => true
  | .valueMissing => true
  | _ => false

/-- An element of two lists put together is in the second or in the first. -/
lemma append_eq_append_cons {α : Type} {xs ys before after : List α} {x : α}
    (h : xs ++ ys = before ++ x :: after) :
    (∃ middle, before = xs ++ middle ∧ ys = middle ++ x :: after) ∨
      ∃ middle, xs = before ++ x :: middle ∧ after = middle ++ ys := by
  rcases List.append_eq_append_iff.mp h with ⟨middle, rfl, rest⟩ | ⟨middle, rfl, rest⟩
  · exact .inl ⟨middle, rfl, rest⟩
  · cases middle with
    | nil => exact .inl ⟨[], by simp, rest.symm⟩
    | cons e middle =>
      obtain ⟨rfl, rfl⟩ := List.cons.inj rest
      exact .inr ⟨middle, rfl, rfl⟩

lemma singleton_eq_append_cons {α : Type} {before after : List α} {x y : α} (h : [x] = before ++ y :: after) :
    before = [] ∧ y = x ∧ after = [] := by
  cases before with
  | nil => simpa [eq_comm] using h
  | cons e before => simp at h

lemma violation?_message {condition : Condition} {value : String} {message : Message}
    (h : condition.violation? value = some message) :
    message = .invalidChoice ∨ ∃ low high, message = .outOfRange low high := by
  unfold Condition.violation? at h
  split at h
  · split at h
    · cases h
    · cases h
      exact .inl rfl
  · split at h
    · cases h
    · split at h
      · cases h
        exact .inr ⟨_, _, rfl⟩
      · cases h
  · cases h

lemma mismatch?_message {type : ValueType} {value : List Char} {message : Message}
    (h : type.mismatch? value = some message) :
    message = .notFloat ∨ message = .notInt ∨ message = .notBool := by
  unfold ValueType.mismatch? at h
  split at h <;> (try split at h) <;> cases h <;> simp

/-- The complaint of a type is about the value alone. -/
lemma mem_checkType {rule : Rule} {value : String} {span : Span} {d : Diagnostic}
    (h : d ∈ rule.checkType value span) :
    d.span = span ∧ (d.message = .notFloat ∨ d.message = .notInt ∨ d.message = .notBool) := by
  simp only [Rule.checkType, Option.mem_toList, Option.map_eq_some_iff] at h
  obtain ⟨message, found, rfl⟩ := h
  obtain ⟨type, -, found⟩ := Option.bind_eq_some_iff.mp found
  exact ⟨rfl, mismatch?_message found⟩

/-- The hint on an assignment of the default. -/
def redundant (span : Span) : Diagnostic :=
  (Diagnostic.hint span .defaultValue).withFix .remove (.deletion span)

/-- The default is found at the assignment, and a broken condition at the value alone. -/
lemma checkContent_eq_append_cons {rule : Rule} {value : String} {key span : Span} {d : Diagnostic}
    {first rest : List Diagnostic} (h : rule.checkContent value key span = first ++ d :: rest) :
    first = [] ∧ rest = [] ∧ (d = redundant ⟨key.start, span.stop⟩ ∨ ∃ message, d = .error span message ∧
      (message = .invalidChoice ∨ ∃ low high, message = .outOfRange low high)) := by
  unfold Rule.checkContent at h
  split at h
  · obtain ⟨rfl, rfl, rfl⟩ := singleton_eq_append_cons h
    exact ⟨rfl, rfl, .inl rfl⟩
  · cases broken : rule.condition?.bind (·.violation? value) with
    | none => simp [broken] at h
    | some message =>
      rw [broken] at h
      obtain ⟨rfl, rfl, rfl⟩ := singleton_eq_append_cons h
      obtain ⟨condition, -, found⟩ := Option.bind_eq_some_iff.mp broken
      exact ⟨rfl, rfl, .inr ⟨message, rfl, violation?_message found⟩⟩

lemma check_message {rule : Rule} {value : String} {key span : Span} {d : Diagnostic}
    (h : d ∈ rule.check value key span) : d.message.isStructural = false := by
  rcases List.mem_append.mp h with h | h
  · obtain ⟨first, rest, split⟩ := List.append_of_mem h
    obtain ⟨-, -, rfl | ⟨_, rfl, rfl | ⟨low, high, rfl⟩⟩⟩ := checkContent_eq_append_cons split <;> rfl
  · rcases (mem_checkType h).2 with type | type | type <;> rw [type] <;> rfl

namespace Adjacency

def Token.relocate (f : Nat → Nat) (t : Token) : Token := { t with span := t.span.relocate f }

/-- What the windows along tokens say. -/
def lint (schema : Schema) (size : Nat) (older? last? : Option Token) (ts : List Token) :
    List Diagnostic :=
  (windows older? last? ts).flatMap fun w => w.report schema size w.older?

/-- What a token adds to the report. -/
def remark (schema : Schema) (older? last? : Option Token) (token : Token) : List Diagnostic :=
  Window.report schema 0 older? ⟨older?, last?, some token⟩

/-- What the tokens add to the report, one after the other. -/
def remarks (schema : Schema) (older? last? : Option Token) : List Token → List Diagnostic
  | [] => []
  | t :: ts => remark schema older? last? t ++ remarks schema last? (some t) ts

/-- What the end of the tokens adds to the report. -/
def closing (schema : Schema) (size : Nat) (older? last? : Option Token) : List Diagnostic :=
  Window.report schema size older? ⟨older?, last?, none⟩

/-- The last two tokens after some more. -/
def slide (older? last? : Option Token) : List Token → Option Token × Option Token
  | [] => (older?, last?)
  | t :: ts => slide last? (some t) ts

variable (schema : Schema) (size : Nat) (older? last? : Option Token)

@[simp] theorem slide_append_singleton (ts : List Token) (t : Token) :
    slide older? last? (ts ++ [t]) = ((slide older? last? ts).2, some t) := by
  induction ts generalizing older? last? with
  | nil => rfl
  | cons u ts ih => exact ih last? (some u)

lemma remark_eq (token : Token) :
    remark schema older? last? token =
      (last?.map fun last =>
        interruption (older?.map (·.kind)) last (some token.kind) token.span).getD [] ++
        findings schema (older?.map (·.kind)) (last?.map (·.kind)) token older? := rfl

lemma closing_eq :
    closing schema size older? last? =
      (last?.map fun last => interruption (older?.map (·.kind)) last none (.point size)).getD [] := by
  simp only [closing, Window.report, Option.map_none, Option.getD_none, List.append_nil]
  rfl

@[simp] theorem lint_nil : lint schema size older? last? [] = closing schema size older? last? := by
  simp [lint, windows, closing]

theorem lint_cons (t : Token) (ts : List Token) :
    lint schema size older? last? (t :: ts) =
      remark schema older? last? t ++ lint schema size last? (some t) ts := by
  simp only [lint, windows, List.flatMap_cons]
  rfl

theorem lint_append (ts us : List Token) :
    lint schema size older? last? (ts ++ us) =
      remarks schema older? last? ts ++
        lint schema size (slide older? last? ts).1 (slide older? last? ts).2 us := by
  induction ts generalizing older? last? with
  | nil => rfl
  | cons t ts ih => rw [List.cons_append, lint_cons, ih, remarks, List.append_assoc]; rfl

lemma remarks_append (ts us : List Token) :
    remarks schema older? last? (ts ++ us) =
      remarks schema older? last? ts ++
        remarks schema (slide older? last? ts).1 (slide older? last? ts).2 us := by
  induction ts generalizing older? last? with
  | nil => rfl
  | cons t ts ih => rw [List.cons_append, remarks, ih, remarks, List.append_assoc]; rfl

variable {older? last?}

/-- A token that waits for nothing is not interrupted. -/
lemma interruption_settled {older? : Option Kind} {last : Token}
    (settled : awaiting older? (some last.kind) = none) (next? : Option Kind) (place : Span) :
    interruption older? last next? place = [] := by
  have said := interruption_eq_report older? last next? (.node place)
  rw [settled] at said
  exact said

/-- Kinds that do not matter once another token was read. -/
lemma kinds_of_settled {older? last? : Option Kind} (settled : awaiting older? last? = none) :
    last? ≠ some .containerStart ∧ last? ≠ some .keyName ∧
      ¬(older? = some .keyName ∧ last? = some .assign) := by
  refine ⟨?_, ?_, ?_⟩
  · rintro rfl
    cases settled
  · rintro rfl
    cases settled
  · rintro ⟨rfl, rfl⟩
    cases settled

lemma findings_settled {older? last? : Option Kind} (settled : awaiting older? last? = none)
    (token : Token) (key? key?' : Option Token) :
    findings schema older? last? token key? = findings schema none none token key?' := by
  obtain ⟨start, -, value⟩ := kinds_of_settled settled
  have no_value : ∀ b : Prop, ¬(older? = some .keyName ∧ last? = some .assign ∧ b) :=
    fun b h => value ⟨h.1, h.2.1⟩
  unfold findings
  split <;> simp_all

lemma remark_settled (settled : awaiting (older?.map (·.kind)) (last?.map (·.kind)) = none) (token : Token) :
    remark schema older? last? token = remark schema none none token := by
  rw [remark_eq, remark_eq, findings_settled schema settled token older? none]
  cases last? with
  | none => rfl
  | some last =>
    have quiet := interruption_settled settled (some token.kind) token.span
    simp only [Option.map_some, Option.getD_some, quiet]
    rfl

lemma closing_settled (settled : awaiting (older?.map (·.kind)) (last?.map (·.kind)) = none) :
    closing schema size older? last? = [] := by
  rw [closing_eq]
  cases last? with
  | none => rfl
  | some last =>
    simp only [Option.map_some, Option.getD_some]
    exact interruption_settled settled none (.point size)

/-- One token on, only two kinds are still remembered. -/
lemma lint_forget (start : last?.map (·.kind) ≠ some .containerStart)
    (key : last?.map (·.kind) ≠ some .keyName) (t : Token) (ts : List Token) :
    lint schema size last? (some t) ts = lint schema size none (some t) ts := by
  have interrupted : ∀ next? place,
      interruption (last?.map (·.kind)) t next? place = interruption none t next? place := by
    intro next? place
    unfold interruption
    split <;> simp_all
  have found : ∀ token, findings schema (last?.map (·.kind)) (some t.kind) token last? =
      findings schema none (some t.kind) token none := by
    intro token
    unfold findings
    split <;> simp_all
  cases ts with
  | nil =>
    rw [lint_nil, lint_nil, closing_eq, closing_eq]
    simp only [Option.map_some, Option.getD_some, interrupted]
    rfl
  | cons u us =>
    rw [lint_cons, lint_cons, remark_eq, remark_eq]
    simp only [Option.map_some, Option.getD_some, interrupted, found]
    rfl

/-- After tokens that wait for nothing, the report starts anew. -/
theorem lint_settled (settled : awaiting (older?.map (·.kind)) (last?.map (·.kind)) = none)
    (ts : List Token) : lint schema size older? last? ts = lint schema size none none ts := by
  obtain ⟨start, key, -⟩ := kinds_of_settled settled
  cases ts with
  | nil =>
    rw [lint_nil, lint_nil, closing_settled schema size settled]
    rfl
  | cons t ts =>
    rw [lint_cons, lint_cons, remark_settled schema settled, lint_forget schema size start key]

lemma lint_append_of_settled {ts : List Token}
    (settled :
      awaiting ((slide older? last? ts).1.map (·.kind)) ((slide older? last? ts).2.map (·.kind)) = none)
    (us : List Token) :
    lint schema size older? last? (ts ++ us) =
      remarks schema older? last? ts ++ lint schema size none none us := by
  rw [lint_append, lint_settled schema size settled]

/-- At the start of a line, the report starts anew. -/
lemma settled_of_lineStart {ts : List Token} (line : ∀ t ∈ ts.getLast?, t.kind = .lineBreak) :
    awaiting ((slide none none ts).1.map (·.kind)) ((slide none none ts).2.map (·.kind)) = none := by
  rcases List.eq_nil_or_concat ts with rfl | ⟨ts, t, rfl⟩
  · rfl
  · rw [List.concat_eq_append] at line ⊢
    rw [slide_append_singleton, Option.map_some, line t (by simp)]
    rfl

/-- The error of a container without its end. -/
def missingEnd (stop : Nat) : Diagnostic :=
  (Diagnostic.error (.point stop) .containerEndMissing).withFix .fix (.insertion stop "]")

/-- The error of a key without an equals sign. -/
def missingAssign (stop : Nat) : Diagnostic :=
  (Diagnostic.error (.point stop) .assignMissing).withFix .fix (.insertion stop "=")

section Origin

/-- The four errors of tokens that are broken off; never two of them at one place. -/
lemma interruption_eq_append_cons {older? next? : Option Kind} {last : Token} {place : Span}
    {first rest : List Diagnostic} {d : Diagnostic}
    (h : interruption older? last next? place = first ++ d :: rest) :
    first = [] ∧ rest = [] ∧
      ((last.kind = .containerStart ∧ d = .error place .containerNameMissing) ∨
        (older? = some .containerStart ∧ last.kind = .containerName ∧ d = missingEnd last.span.stop) ∨
        (last.kind = .keyName ∧ next? ≠ some .assign ∧ d = missingAssign last.span.stop) ∨
        (last.kind = .assign ∧ next?.any Kind.isLiteral = false ∧ d = .error place .valueMissing)) := by
  unfold interruption at h
  split at h
  next start =>
    split at h
    next => simp at h
    next =>
      obtain ⟨rfl, rfl, rfl⟩ := singleton_eq_append_cons h
      exact ⟨rfl, rfl, .inl ⟨start, rfl⟩⟩
  next named =>
    split at h
    next broken =>
      obtain ⟨rfl, rfl, rfl⟩ := singleton_eq_append_cons h
      exact ⟨rfl, rfl, .inr (.inl ⟨broken.1, named, rfl⟩)⟩
    next => simp at h
  next key =>
    split at h
    next => simp at h
    next broken =>
      obtain ⟨rfl, rfl, rfl⟩ := singleton_eq_append_cons h
      exact ⟨rfl, rfl, .inr (.inr (.inl ⟨key, broken, rfl⟩))⟩
  next assign =>
    split at h
    next broken =>
      obtain ⟨rfl, rfl, rfl⟩ := singleton_eq_append_cons h
      exact ⟨rfl, rfl, .inr (.inr (.inr ⟨assign, broken.2, rfl⟩))⟩
    next => simp at h
  next => simp at h

/-- A name can be unknown, and a value is checked by the rule of its key. -/
lemma findings_eq_append_cons {older? last? : Option Kind} {token : Token} {key? : Option Token}
    {first rest : List Diagnostic} {d : Diagnostic}
    (h : findings schema older? last? token key? = first ++ d :: rest) :
    (first = [] ∧ rest = [] ∧ ((token.kind = .containerName ∧ d = .warning token.span .containerUnknown) ∨
        (token.kind = .keyName ∧ d = .warning token.span .keyUnknown))) ∨
      ∃ key rule, key? = some key ∧ older? = some .keyName ∧ last? = some .assign ∧
        token.kind.isLiteral = true ∧ ruleOf? schema key.text = some rule ∧
        rule.check (trimmed token.text) key.span token.span = first ++ d :: rest := by
  unfold findings at h
  split at h
  next named =>
    split at h
    · obtain ⟨rfl, rfl, rfl⟩ := singleton_eq_append_cons h
      exact .inl ⟨rfl, rfl, .inl ⟨named, rfl⟩⟩
    · simp at h
  next named =>
    split at h
    · obtain ⟨rfl, rfl, rfl⟩ := singleton_eq_append_cons h
      exact .inl ⟨rfl, rfl, .inr ⟨named, rfl⟩⟩
    · simp at h
  · split at h
    next value =>
      split at h
      · simp at h
      next key =>
        split at h
        · simp at h
        next rule ruled => exact .inr ⟨key, rule, rfl, value.1, value.2.1, value.2.2, ruled, h⟩
    next => simp at h

lemma findings_message {older? last? : Option Kind} {token : Token} {key? : Option Token} {d : Diagnostic}
    (h : d ∈ findings schema older? last? token key?) : d.message.isStructural = false := by
  obtain ⟨first, rest, split⟩ := List.append_of_mem h
  obtain ⟨-, -, ⟨-, rfl⟩ | ⟨-, rfl⟩⟩ | ⟨key, rule, -, -, -, -, -, checked⟩ :=
    findings_eq_append_cons schema split
  · rfl
  · rfl
  · exact check_message (by rw [checked]; simp)

/-- Errors in the order of tokens are said first, and of the last token. -/
lemma report_structural {key? : Option Token} {w : Window Token} {first rest : List Diagnostic}
    {d : Diagnostic} (h : w.report schema size key? = first ++ d :: rest)
    (structural : d.message.isStructural = true) :
    ∃ last, w.last? = some last ∧ interruption w.olderKind? last w.nextKind? (w.place size) = [d] ∧
      first = [] ∧
      rest = (w.next?.map fun token => findings schema w.olderKind? w.lastKind? token key?).getD [] := by
  rw [Window.report] at h
  rcases append_eq_append_cons h with ⟨middle, rfl, later⟩ | ⟨middle, now, rfl⟩
  · -- what the schema says of the next token is not about the order of tokens
    cases next : w.next? with
    | none => simp [next] at later
    | some token =>
      rw [next, Option.map_some, Option.getD_some] at later
      rw [findings_message schema (by rw [later]; simp)] at structural
      cases structural
  · cases last : w.last? with
    | none => simp [last] at now
    | some token =>
      rw [last, Option.map_some, Option.getD_some] at now
      obtain ⟨rfl, rfl, -⟩ := interruption_eq_append_cons now
      exact ⟨token, rfl, now, rfl, List.nil_append _⟩

/-- What is said of the tokens after the first. -/
def further (last? : Option Token) : List Token → List Diagnostic
  | [] => []
  | t :: ts => lint schema size last? (some t) ts

lemma lint_eq_report (older? last? : Option Token) (ts : List Token) :
    lint schema size older? last? ts =
      Window.report schema size older? ⟨older?, last?, ts.head?⟩ ++ further schema size last? ts := by
  cases ts with
  | nil => rw [lint_nil, further, List.append_nil]; rfl
  | cons t ts => rw [lint_cons]; rfl

/-- Every diagnostic comes from a window. -/
lemma lint_eq_append_cons {ts : List Token} {before after : List Diagnostic} {d : Diagnostic}
    (h : lint schema size older? last? ts = before ++ d :: after) :
    ∃ us vs first rest, ts = us ++ vs ∧
      Window.report schema size (slide older? last? us).1
        ⟨(slide older? last? us).1, (slide older? last? us).2, vs.head?⟩ = first ++ d :: rest ∧
      before = remarks schema older? last? us ++ first ∧
      after = rest ++ further schema size (slide older? last? us).2 vs := by
  induction ts generalizing older? last? before with
  | nil =>
    rw [lint_nil] at h
    exact ⟨[], [], before, after, rfl, h, rfl, (List.append_nil after).symm⟩
  | cons t ts ih =>
    rw [lint_cons] at h
    rcases append_eq_append_cons h with ⟨middle, rfl, later⟩ | ⟨middle, now, rfl⟩
    · obtain ⟨us, vs, first, rest, rfl, said, rfl, rfl⟩ := ih later
      exact ⟨t :: us, vs, first, rest, rfl, said, by rw [remarks, List.append_assoc], rfl⟩
    · exact ⟨[], t :: ts, before, middle, rfl, now, rfl, rfl⟩

lemma slide_snd_eq_some {ts : List Token} {last : Token} (h : (slide none none ts).2 = some last) :
    ∃ us, ts = us ++ [last] := by
  rcases List.eq_nil_or_concat ts with rfl | ⟨us, u, rfl⟩
  · cases h
  · rw [List.concat_eq_append, slide_append_singleton] at h
    cases h
    exact ⟨us, by simp⟩

lemma slide_eq_some {ts : List Token} {older last : Token}
    (h : slide none none ts = (some older, some last)) : ∃ us, ts = us ++ [older, last] := by
  obtain ⟨ts, rfl⟩ := slide_snd_eq_some (congrArg Prod.snd h)
  rw [slide_append_singleton] at h
  obtain ⟨us, rfl⟩ := slide_snd_eq_some (congrArg Prod.fst h)
  exact ⟨us, by simp⟩

end Origin

section Relocation
variable (f : Nat → Nat)

lemma map_relocate_congr {f g : Nat → Nat} {ts : List Token}
    (h : ∀ t ∈ ts, f t.span.start = g t.span.start ∧ f t.span.stop = g t.span.stop) :
    ts.map (·.relocate f) = ts.map (·.relocate g) := by
  apply List.map_congr_left
  intro t ht
  rw [Token.relocate, Token.relocate, Span.relocate, Span.relocate, (h t ht).1, (h t ht).2]

lemma interruption_relocate (older? : Option Kind) (last : Token) (next? : Option Kind) (place : Span) :
    interruption older? (last.relocate f) next? (place.relocate f) =
      (interruption older? last next? place).map (·.relocate f) := by
  unfold interruption
  simp only [Token.relocate]
  split
  · split <;> rfl
  · split <;> rfl
  · split <;> rfl
  · split <;> rfl
  · rfl

lemma check_relocate (rule : Rule) (value : String) (key span : Span) :
    rule.check value (key.relocate f) (span.relocate f) =
      (rule.check value key span).map (·.relocate f) := by
  have content : rule.checkContent value (key.relocate f) (span.relocate f) =
      (rule.checkContent value key span).map (·.relocate f) := by
    unfold Rule.checkContent
    split
    · rfl
    · cases rule.condition?.bind (·.violation? value) <;> rfl
  have type : rule.checkType value (span.relocate f) =
      (rule.checkType value span).map (·.relocate f) := by
    unfold Rule.checkType
    cases rule.valueType.bind (·.mismatch? value.toList) <;> rfl
  rw [Rule.check, content, type, Rule.check, List.map_append]

lemma findings_relocate (older? last? : Option Kind) (token : Token) (key? : Option Token) :
    findings schema older? last? (token.relocate f) (key?.map (·.relocate f)) =
      (findings schema older? last? token key?).map (·.relocate f) := by
  unfold findings
  simp only [Token.relocate]
  split
  · rw [apply_ite (List.map _)]
    rfl
  · rw [apply_ite (List.map _)]
    rfl
  · rw [apply_ite (List.map _)]
    congr 1
    cases key? with
    | none => rfl
    | some key =>
      simp only [Option.map_some]
      cases ruleOf? schema key.text with
      | none => rfl
      | some rule => exact check_relocate f rule _ key.span token.span

variable (older? last?)

lemma remark_relocate (token : Token) :
    remark schema (older?.map (·.relocate f)) (last?.map (·.relocate f)) (token.relocate f) =
      (remark schema older? last? token).map (·.relocate f) := by
  rw [remark_eq, remark_eq, List.map_append, ← findings_relocate]
  congr 1
  · cases last? with
    | none => rfl
    | some last =>
      simp only [Option.map_some, Option.getD_some, ← interruption_relocate]
      cases older? <;> rfl
  · cases older? <;> cases last? <;> rfl

lemma closing_relocate :
    closing schema (f size) (older?.map (·.relocate f)) (last?.map (·.relocate f)) =
      (closing schema size older? last?).map (·.relocate f) := by
  rw [closing_eq, closing_eq]
  cases last? with
  | none => rfl
  | some last =>
    simp only [Option.map_some, Option.getD_some, ← interruption_relocate]
    cases older? <;> rfl

lemma remarks_relocate (ts : List Token) :
    remarks schema (older?.map (·.relocate f)) (last?.map (·.relocate f)) (ts.map (·.relocate f)) =
      (remarks schema older? last? ts).map (·.relocate f) := by
  induction ts generalizing older? last? with
  | nil => rfl
  | cons t ts ih => rw [List.map_cons, remarks, remarks, List.map_append, remark_relocate, ← ih]; rfl

/-- When all places are moved, so are those of the diagnostics. -/
theorem lint_relocate (ts : List Token) :
    lint schema (f size) (older?.map (·.relocate f)) (last?.map (·.relocate f)) (ts.map (·.relocate f)) =
      (lint schema size older? last? ts).map (·.relocate f) := by
  induction ts generalizing older? last? with
  | nil => rw [List.map_nil, lint_nil, lint_nil, closing_relocate]
  | cons t ts ih => rw [List.map_cons, lint_cons, lint_cons, List.map_append, remark_relocate, ← ih]; rfl

end Relocation
end Adjacency
end Keyfile
