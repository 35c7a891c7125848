import Keyfile.Proofs.Decimals
import Keyfile.Proofs.DefaultFix
import Keyfile.Proofs.MissingValue
import Keyfile.Proofs.NameCompletion

/-! Completion of values from a condition. What is offered meets the condition as it is listed, but a value in a
text is read without the blanks at its ends; the text with an offer accepted breaks the condition exactly if the
offer is not listed without them as well. -/
namespace Keyfile
open Adjacency

/-- Complaints that a value does not meet a condition. -/
def Message.isViolation : Message → Bool
  | .invalidChoice => true
  | .outOfRange _ _ => true
  | _ => false

section Blanks
variable {cs blanks : List Char}

lemma Text.trim_append_of_blank (cs : List Char) (h : ∀ c ∈ blanks, isBlank c = true) :
    trim (cs ++ blanks) = trim cs := by
  rw [trim, trim, List.dropWhile_append]
  split
  next empty =>
    rw [List.isEmpty_iff.mp empty, List.dropWhile_eq_nil_iff.mpr h]
  next => exact trimEnd_append_of_blank _ h

lemma Text.trim_of_blank_append (h : ∀ c ∈ blanks, isBlank c = true) (cs : List Char) :
    trim (blanks ++ cs) = trim cs := by
  rw [trim, trim, List.dropWhile_append_of_pos h]

lemma Text.trim_trimEnd (cs : List Char) : trim (trimEnd cs) = trim cs := by
  have blank := isBlank_of_trimEnd (trimEnd_append_blanks cs).symm
  rw [← trim_append_of_blank (trimEnd cs) blank, trimEnd_append_blanks]

lemma Text.trim_of_solid (h : ∀ c ∈ cs, isBlank c = false) : trim cs = cs := by
  have start : cs.dropWhile isBlank = cs := by
    cases cs with
    | nil => rfl
    | cons c cs => rw [List.dropWhile_cons, h c (by simp)]; rfl
  rw [trim, start]
  exact trimEnd_of_solid fun c hc => h c (List.mem_of_getLast? hc)

end Blanks

section Integers

lemma mem_integersFrom {low n : Int} {count : Nat} : n ∈ integersFrom low count ↔ low ≤ n ∧ n < low + count := by
  induction count generalizing low with
  | zero =>
    simp only [integersFrom, List.not_mem_nil, false_iff]
    omega
  | succ count ih =>
    rw [integersFrom, List.mem_cons, ih]
    push_cast
    omega

lemma Text.isBlank_of_isDigit {c : Char} (digit : c.isDigit = true) : isBlank c = false := by
  by_contra blank
  have other : ∀ n ∈ blankCodes, (Char.ofNat n).isDigit = false := by decide
  have no_digit := other _ (mem_blankCodes_of_isBlank (by simpa using blank))
  rw [Char.ofNat_toNat, digit] at no_digit
  cases no_digit

/-- A written integer has no blanks. -/
lemma trimmed_decimalString (n : Int) : trimmed (decimalString n) = decimalString n := by
  have solid : ∀ n : Nat, ∀ c ∈ Nat.toDigits 10 n, Text.isBlank c = false := fun n c hc =>
    Text.isBlank_of_isDigit (Text.isDigit_of_mem_toDigits hc)
  rw [trimmed, decimalString, String.toList_ofList, Text.trim_of_solid]
  cases n with
  | ofNat n => exact solid n
  | negSucc n => exact List.forall_mem_cons.mpr ⟨by decide, solid (n + 1)⟩

end Integers

section Conditions
variable {condition : Condition} {limit : Int} {values : List String} {value : String}

/-- Read without blanks at its ends, a value that is listed for a condition breaks it exactly if it is not
listed so. -/
lemma violation?_trimmed (offered : condition.values? limit = some values) (listed : value ∈ values) :
    (∃ message, condition.violation? (trimmed value) = some message) ↔ trimmed value ∉ values := by
  cases condition with
  | oneOf choices =>
    obtain rfl : choices = values := Option.some.inj offered
    simp [Condition.violation?]
  | between low high =>
    simp only [Condition.values?] at offered
    split_ifs at offered with range
    obtain rfl := Option.some.inj offered
    obtain ⟨n, within, rfl⟩ := List.mem_map.mp listed
    -- a range is listed in decimals, and these have no blanks to lose
    rw [trimmed_decimalString]
    refine iff_of_false ?_ (not_not_intro listed)
    rintro ⟨message, broken⟩
    have bounds := mem_integersFrom.mp within
    simp only [Condition.violation?, decimalString, String.toList_ofList, Text.int64?_decimal,
      Text.asInt64] at broken
    split_ifs at broken with held
    · simp only at broken
      split_ifs at broken with outside
      omega
  | unsupported => cases offered

/-- A rule makes a complaint about its condition exactly if the condition does, of a value that is not the default. -/
lemma check_message_iff (rule : Rule) (value : String) (key span : Span) {message : Message}
    (broken : message.isViolation = true) :
    (∃ d ∈ rule.check value key span, d.message = message) ↔
      rule.defaultValue ≠ some value ∧ rule.condition?.bind (·.violation? value) = some message := by
  rw [Rule.check]
  constructor
  · rintro ⟨d, hd, rfl⟩
    rcases List.mem_append.mp hd with content | type
    · rw [Rule.checkContent] at content
      split_ifs at content with default
      · obtain rfl := List.mem_singleton.mp content
        cases broken
      · obtain ⟨message, violated, rfl⟩ := Option.map_eq_some_iff.mp (Option.mem_toList.mp content)
        exact ⟨default, violated⟩
    · rcases (mem_checkType type).2 with kind | kind | kind <;> rw [kind] at broken <;> cases broken
  · rintro ⟨other, violated⟩
    refine ⟨.error span message, List.mem_append_left _ ?_, rfl⟩
    rw [Rule.checkContent, if_neg other, violated]
    exact List.mem_singleton_self _

lemma check_isViolation_iff (rule : Rule) (value : String) (key span : Span) :
    (∃ d ∈ rule.check value key span, d.message.isViolation = true) ↔
      rule.defaultValue ≠ some value ∧ ∃ message, rule.condition?.bind (·.violation? value) = some message := by
  constructor
  · rintro ⟨d, hd, broken⟩
    obtain ⟨other, violated⟩ := (check_message_iff rule value key span broken).mp ⟨d, hd, rfl⟩
    exact ⟨other, d.message, violated⟩
  · rintro ⟨other, message, violated⟩
    obtain ⟨condition, -, said⟩ := Option.bind_eq_some_iff.mp violated
    have broken : message.isViolation = true := by
      rcases violation?_message said with rfl | ⟨low, high, rfl⟩ <;> rfl
    obtain ⟨d, hd, rfl⟩ := (check_message_iff rule value key span broken).mpr ⟨other, violated⟩
    exact ⟨d, hd, broken⟩

end Conditions

section Reading

lemma lexemes_assignment {name : List Char} (nonempty : name ≠ []) (named : ∀ c ∈ name, isNameChar c = true)
    (behind : List Char) :
    lexemes .fresh (name ++ '=' :: behind) =
      ⟨some .keyName, name⟩ :: ⟨some .assign, ['=']⟩ :: lexemes ⟨false, true⟩ behind := by
  have sign : isNameChar '=' = false := by decide +kernel
  have keyed : Starts .fresh ⟨some .keyName, name⟩ ('=' :: behind) :=
    starts_name rfl nonempty named (by simpa using sign)
  have assigned : Starts .fresh ⟨some .assign, ['=']⟩ behind := ⟨'=', behind, rfl, rfl⟩
  rw [lexemes_of_starts keyed]
  exact congrArg (_ :: ·) (lexemes_of_starts assigned)

lemma role_stray {c : Char} (blank : Text.isBlank c = true) (value : isValueChar c = true)
    (unskipped : isGap c = false) : role false c = .stray := by
  have apart : ∀ x, Text.isBlank x = false → c ≠ x := by
    rintro x solid rfl
    rw [blank] at solid
    cases solid
  have unnamed : isNameChar c = false := by
    by_contra name
    rw [isBlank_of_isNameChar (by simpa using name)] at blank
    cases blank
  simp only [isValueChar, Bool.and_eq_true, bne_iff_ne, Bool.not_eq_true'] at value
  simp [role, value, unskipped, unnamed, apart '[' rfl, apart ']' rfl, apart '=' rfl]

/-- Blanks behind a value are no words of the language. -/
lemma lexemes_blanks {blanks : List Char} (blank : ∀ c ∈ blanks, Text.isBlank c = true)
    (value : ∀ c ∈ blanks, isValueChar c = true) :
    ∀ l ∈ lexemes ⟨false, false⟩ blanks, l.kind? = none ∨ l.kind? = some .unclassified := by
  induction blanks with
  | nil => simp [lexemes]
  | cons c blanks ih =>
    obtain ⟨blankHead, blankTail⟩ := List.forall_mem_cons.mp blank
    obtain ⟨valueHead, valueTail⟩ := List.forall_mem_cons.mp value
    have first : ∃ kind?, (kind? = none ∨ kind? = some Kind.unclassified) ∧
        Starts ⟨false, false⟩ ⟨kind?, [c]⟩ blanks := by
      cases gap : isGap c with
      | true => exact ⟨none, .inl rfl, starts_gap gap _ _⟩
      | false =>
        refine ⟨some .unclassified, .inr rfl, c, blanks, rfl, ?_⟩
        rw [role_stray blankHead valueHead gap]
        rfl
    obtain ⟨kind?, kinds, starts⟩ := first
    -- neither a gap nor a stray character changes how the line goes on
    have state : LineState.after ⟨false, false⟩ kind? = ⟨false, false⟩ := by rcases kinds with rfl | rfl <;> rfl
    have split := lexemes_of_starts starts
    rw [state] at split
    rw [show c :: blanks = [c] ++ blanks from rfl, split]
    exact List.forall_mem_cons.mpr ⟨kinds, ih blankTail valueTail⟩

/-- An unquoted value behind an equals sign: it is read without the blanks around it. -/
lemma lexemes_value {cs : List Char} (plain : ∀ c ∈ cs, isValueChar c = true ∧ c ≠ '"')
    (unskipped : ∃ c ∈ cs, isGap c = false) :
    ∃ gaps value blanks : List Char, Text.trim value = Text.trim cs ∧
      (∀ c ∈ blanks, Text.isBlank c = true) ∧ (∀ c ∈ blanks, isValueChar c = true) ∧
      lexemes ⟨false, true⟩ cs =
        gaps.map (fun c => ⟨none, [c]⟩) ++
          ⟨some (valueKind value), value⟩ :: lexemes ⟨false, false⟩ blanks := by
  have whole : cs.takeWhile isValueChar = cs := List.takeWhile_eq_self_iff.mpr fun c hc => (plain c hc).1
  obtain ⟨gaps, c, rest, rfl, skipped, unskipped, value, stretch⟩ := exists_unskipped (by rwa [whole])
  have inner : (c :: rest).takeWhile isValueChar = c :: rest := List.append_cancel_left (stretch.symm.trans whole)
  obtain ⟨blanks, parted⟩ := trimEnd_isPrefix (c :: rest)
  have blank := isBlank_of_trimEnd parted.symm
  have starts : Starts ⟨false, true⟩
      ⟨some (valueKind (Text.trimEnd (c :: rest))), Text.trimEnd (c :: rest)⟩ blanks := by
    refine ⟨c, rest, parted, ?_⟩
    rw [role_value value unskipped, Role.lexeme, valueLexeme_unquoted (plain c (by simp)).2, inner]
  refine ⟨gaps, Text.trimEnd (c :: rest), blanks, ?_, blank, ?_, ?_⟩
  · rw [Text.trim_trimEnd, Text.trim_of_blank_append fun g hg => isBlank_of_isGap (skipped g hg)]
  · intro x hx
    refine (plain x (List.mem_append_right _ ?_)).1
    rw [← parted]
    exact List.mem_append_right _ hx
  · rw [lexemes_gaps _ skipped]
    have split := lexemes_of_starts starts
    rw [parted, after_valueKind] at split
    rw [split]

end Reading

section Report
variable {schema : Schema} {rule : Rule} (size : Nat)

/-- An assignment to a key with a rule says nothing before its value. -/
lemma lint_ruled {key assign : Token} (keyKind : key.kind = .keyName) (assignKind : assign.kind = .assign)
    (ruled : ruleOf? schema key.text = some rule) (ts : List Token) :
    lint schema size none none (key :: assign :: ts) = lint schema size (some key) (some assign) ts := by
  have quiet : remarks schema none none ([] ++ [key, assign]) = [] :=
    remarks_assignment schema (by simp) keyKind assignKind ruled
  have split := lint_append schema size none none ([] ++ [key, assign]) ts
  rw [quiet] at split
  exact split

lemma lint_unclassified {ts : List Token} (h : ∀ t ∈ ts, t.kind = .unclassified) :
    lint schema size none none ts = [] := by
  induction ts with
  | nil => rfl
  | cons t ts ih =>
    obtain ⟨kind, later⟩ := List.forall_mem_cons.mp h
    have settled : awaiting (Option.map (·.kind) (none : Option Token)) (Option.map (·.kind) (some t)) = none := by
      simp [awaiting, kind]
    have quiet : remark schema none none t = [] := by simp [remark_eq, findings, kind]
    rw [lint_cons, quiet, lint_settled schema size settled, ih later]
    rfl

/-- Where only unclassified characters follow an assignment, nothing is said but what the rule says of the value. -/
lemma lint_assignment {key assign value : Token} (keyKind : key.kind = .keyName)
    (assignKind : assign.kind = .assign) (literal : value.kind.isLiteral = true)
    (ruled : ruleOf? schema key.text = some rule) {ts : List Token} (strays : ∀ t ∈ ts, t.kind = .unclassified) :
    lint schema size none none (key :: assign :: value :: ts) =
      rule.check (trimmed value.text) key.span value.span := by
  have said : remark schema (some key) (some assign) value =
      rule.check (trimmed value.text) key.span value.span := by
    have kinds : value.kind = .string ∨ value.kind = .number ∨ value.kind = .boolean := by
      simpa [Kind.isLiteral, Kind.literals] using literal
    rw [remark_eq]
    rcases kinds with kind | kind | kind <;>
      simp [interruption, findings, keyKind, assignKind, kind, ruled, Kind.isLiteral, Kind.literals]
  rw [lint_ruled size keyKind assignKind ruled, lint_cons, said, lint_literal schema size assign literal,
    lint_unclassified size strays, List.append_nil]

end Report

section Assigned
variable {schema : Schema} {rule : Rule} {key label : String}

/-- An unquoted value behind the equals sign of a key is checked without the blanks around it. -/
lemma diagnose_assigned (nonempty : key ≠ "") (named : ∀ c ∈ key.toList, isNameChar c = true)
    (ruled : ruleOf? schema key = some rule) (plain : ∀ c ∈ label.toList, isValueChar c = true ∧ c ≠ '"')
    (unskipped : ∃ c ∈ label.toList, isGap c = false) :
    ∃ keySpan span, diagnose schema (scan (key ++ "=" ++ label)) = rule.check (trimmed label) keySpan span := by
  obtain ⟨gaps, value, blanks, same, blank, inside, read⟩ := lexemes_value plain unskipped
  have text : (key ++ "=" ++ label).toList = key.toList ++ '=' :: label.toList := by simp
  have value_eq : trimmed (String.ofList value) = trimmed label := by
    rw [trimmed, trimmed, String.toList_ofList, same]
  have strays : ∀ offset, ∀ t ∈ tokens offset (lexemes ⟨false, false⟩ blanks), t.kind = .unclassified := by
    intro offset t ht
    obtain ⟨l, hl, kind⟩ := exists_lexeme_of_mem_tokens ht
    have := lexemes_blanks blank inside l hl
    rw [kind] at this
    simpa using this
  have literal : (valueKind value).isLiteral = true := by
    simpa [Kind.isLiteral] using valueKind_mem_literals value
  rw [diagnose_scan, text, lexemes_assignment (by simpa using nonempty) named, read, tokens_kind, tokens_kind,
    tokens_gaps, tokens_kind, lint_assignment _ rfl rfl literal (by rwa [String.ofList_toList]) (strays _)]
  exact ⟨_, _, congrArg (rule.check · _ _) value_eq⟩

/-- Skipped blanks alone are no value. -/
lemma diagnose_unassigned (nonempty : key ≠ "") (named : ∀ c ∈ key.toList, isNameChar c = true)
    (ruled : ruleOf? schema key = some rule) (gaps : ∀ c ∈ label.toList, isGap c = true) :
    ∃ span, diagnose schema (scan (key ++ "=" ++ label)) = [.error span .valueMissing] := by
  have text : (key ++ "=" ++ label).toList = key.toList ++ '=' :: (label.toList ++ []) := by simp
  have nothing : lexemes ⟨false, true⟩ [] = [] := by rw [lexemes]
  rw [diagnose_scan, text, lexemes_assignment (by simpa using nonempty) named, lexemes_gaps _ gaps, nothing,
    tokens_kind, tokens_kind, tokens_gaps, lint_ruled _ rfl rfl (by rwa [String.ofList_toList]),
    lint_valueMissing schema _ rfl rfl (by simp)]
  exact ⟨_, rfl⟩

end Assigned

section Offers
variable {ε : Type} {c : Completer} {key : String}

lemma occursIn_nil {α : Type} [BEq α] (xs : List α) : occursIn [] xs = true := by
  cases xs <;> rfl

lemma accepts_empty (c : Completer) (candidate : String) : c.accepts "" candidate = true := by
  rw [Completer.accepts, matchesTyped]
  split
  · exact occursIn_nil _
  · exact occursIn_nil _

/-- An answer is presented as the question says. -/
lemma Plan.kind_of_ask {query : Query} {start : Nat} {stop : Option Nat} {kind : OptionKind}
    {provider : Option (Provider Id ε)} {completion : Completion}
    (h : (Plan.ask query start stop kind).run provider = pure (.ok (some completion))) :
    ∀ option ∈ completion.options, option.kind = kind := by
  cases provider with
  | none => cases Except.ok.inj h
  | some suggest =>
    simp only [Plan.run, bind, pure] at h
    split at h
    next => cases h
    next labels _ =>
      obtain rfl := Option.some.inj (Except.ok.inj h)
      simp [Completion.ofLabels]

/-- Only a condition makes choices. -/
lemma suggestions?_of_choice {rule : Rule} {limit : Int} {suggestions : Suggestions}
    (h : rule.suggestions? limit = some suggestions)
    (choice : Completer.valueOptionKind suggestions.source = .choice) :
    ∃ condition, rule.condition? = some condition ∧ condition.values? limit = some suggestions.values := by
  rw [Rule.suggestions?] at h
  split at h
  next values listed =>
    obtain rfl := Option.some.inj h
    exact Option.bind_eq_some_iff.mp listed
  next =>
    split_ifs at h
    · obtain rfl := Option.some.inj h
      cases choice
    · obtain ⟨_, -, rfl⟩ := Option.map_eq_some_iff.mp h
      cases choice

/-- Options from a condition are all the values listed for it. -/
lemma values?_of_choice {start : Nat} {provider : Option (Provider Id ε)} {completion : Completion}
    {option : CompletionOption}
    (offered : (c.value start key "").run provider = pure (.ok (some completion)))
    (listed : option ∈ completion.options) (choice : option.kind = .choice) :
    ∃ rule condition, ruleOf? c.schema key = some rule ∧ rule.condition? = some condition ∧
      condition.values? c.settings.rangeLimit = some completion.labels := by
  cases known : resolve? c.schema.keys key with
  | none =>
    simp only [Completer.value, known] at offered
    cases Except.ok.inj offered
  | some found =>
    cases suggested : found.entry.info.rule.bind (·.suggestions? c.settings.rangeLimit) with
    | none =>
      simp only [Completer.value, known, suggested] at offered
      rw [Plan.kind_of_ask offered option listed] at choice
      cases choice
    | some suggestions =>
      simp only [Completer.value, known, suggested, accepts_empty, Bool.or_true, List.filter_eq_self.mpr,
        implies_true] at offered
      obtain rfl := Option.some.inj (Except.ok.inj offered)
      obtain ⟨value, -, rfl⟩ := List.mem_map.mp listed
      obtain ⟨rule, ruled, suggested⟩ := Option.bind_eq_some_iff.mp suggested
      obtain ⟨condition, conditioned, values⟩ := suggestions?_of_choice suggested choice
      refine ⟨rule, condition, ?_, conditioned, ?_⟩
      · rw [ruleOf?, known, Option.bind_some, ruled]
      · simpa [Completion.labels, Function.comp_def] using values

/-- Right behind the equals sign of a key, its values are completed and nothing is typed yet. -/
lemma atOffset_assign (schema : Schema) (settings : CompletionSettings) (nonempty : key ≠ "")
    (named : ∀ c ∈ key.toList, isNameChar c = true) :
    Completer.atOffset ⟨schema, settings, scan (key ++ "=")⟩ (Text.bytes (key ++ "=").toList) =
      Completer.value ⟨schema, settings, scan (key ++ "=")⟩ (Text.bytes (key ++ "=").toList) key "" := by
  have text : (key ++ "=").toList = key.toList ++ '=' :: [] := by simp
  have size : Text.bytes (key ++ "=").toList = Text.bytes key.toList + 1 := by
    rw [text, Text.bytes_append]
    rfl
  have read : tokens 0 (lexemes .fresh (key ++ "=").toList) =
      [⟨.keyName, ⟨0, Text.bytes key.toList⟩, key⟩,
        ⟨.assign, ⟨Text.bytes key.toList, Text.bytes key.toList + 1⟩, "="⟩] := by
    rw [text, lexemes_assignment (by simpa using nonempty) named, lexemes, tokens_kind, tokens_kind, Nat.zero_add,
      String.ofList_toList]
    rfl
  have content : (scan (key ++ "=")).content =
      [⟨.keyName, ⟨0, Text.bytes key.toList⟩, []⟩] ++
        ⟨.assign, ⟨Text.bytes key.toList, Text.bytes key.toList + 1⟩, []⟩ :: [] := by
    rw [content_scan, read]
    rfl
  have keyText : (scan (key ++ "=")).slice ⟨0, Text.bytes key.toList⟩ = key :=
    slice_of_mem_tokens (t := ⟨.keyName, _, key⟩) (by rw [read]; simp)
  have inner := innermost_scan content (Nat.lt_succ_self _) (Nat.le_refl _)
  have untyped : trimmed "" = "" := rfl
  rw [size, Completer.atOffset]
  simp only [inner, Cursor.kind, reduceCtorEq, if_false, Completer.onNode, Completer.afterAssign,
    Cursor.prevOfKind?, Cursor.prev?, Cursor.next?, List.reverse_singleton, Option.filter_some, beq_self_eq_true,
    if_true, Option.map_none, Option.getD_none, Document.textOf, Cursor.span, keyText, untyped]

end Offers

section Accept

/-- A choice that is offered right behind the equals sign of a key, and then accepted, breaks the condition exactly
if it is not offered without the blanks at its ends as well; blanks that are skipped make no value, and the default
is not checked. -/
theorem accept_choice_violates_iff {ε : Type} (schema : Schema) (settings : CompletionSettings)
    (provider : Option (Provider Id ε)) {key : String} {completion : Completion} {option : CompletionOption}
    (named : ∀ c ∈ key.toList, isNameChar c = true) (known : (resolve? schema.keys key).isSome = true)
    (offered : (Completer.atOffset ⟨schema, settings, scan (key ++ "=")⟩ (Text.bytes (key ++ "=").toList)).run
      provider = pure (.ok (some completion)))
    (listed : option ∈ completion.options) (choice : option.kind = .choice)
    (plain : ∀ c ∈ option.label.toList, c ≠ '\n' ∧ c ≠ '#' ∧ c ≠ ';' ∧ c ≠ '"') :
    (∃ d ∈ diagnose schema (scan (key ++ "=" ++ option.label)), d.message.isViolation = true) ↔
      trimmed option.label ∉ completion.labels ∧ (∃ c ∈ option.label.toList, isGap c = false) ∧
        (ruleOf? schema key).bind (·.defaultValue) ≠ some (trimmed option.label) := by
  have nonempty : key ≠ "" := by
    rintro rfl
    exact absurd known (by simp [resolve?, segments, splitString, Text.pieces, resolveSegments?, startAt?])
  rw [atOffset_assign schema settings nonempty named] at offered
  obtain ⟨rule, condition, ruled, conditioned, values⟩ := values?_of_choice offered listed choice
  have label : option.label ∈ completion.labels := List.mem_map_of_mem listed
  have value : ∀ c ∈ option.label.toList, isValueChar c = true ∧ c ≠ '"' := by
    intro c hc
    obtain ⟨line, hash, semicolon, quote⟩ := plain c hc
    exact ⟨by simp [isValueChar, isCommentMark, line, hash, semicolon], quote⟩
  -- blanks that are all skipped leave no value to check
  by_cases unskipped : ∃ c ∈ option.label.toList, isGap c = false
  · obtain ⟨keySpan, span, said⟩ := diagnose_assigned nonempty named ruled value unskipped
    rw [said, check_isViolation_iff, conditioned, Option.bind_some, violation?_trimmed values label, ruled,
      Option.bind_some]
    constructor
    · rintro ⟨other, unlisted⟩
      exact ⟨unlisted, unskipped, other⟩
    · rintro ⟨unlisted, -, other⟩
      exact ⟨other, unlisted⟩
  · refine iff_of_false ?_ fun broken => unskipped broken.2.1
    obtain ⟨span, said⟩ := diagnose_unassigned nonempty named ruled (by simpa using unskipped)
    rw [said]
    rintro ⟨d, hd, broken⟩
    obtain rfl := List.mem_singleton.mp hd
    cases broken

/-- One key and the condition for its values. -/
def conditionedKey (condition : String) : Schema :=
  ⟨[], [⟨"k", "K", ⟨.value, some ⟨none, none, none, some condition⟩⟩, none⟩]⟩

/-- A choice with a blank before it is accepted where it is listed without the blank as well. -/
theorem accept_choice_listed_trimmed :
    Completer.atOffset ⟨conditionedKey "in:a, a", ⟨256, true⟩, scan "k="⟩ 2 =
        .settled (some ⟨2, none, [⟨"a", none, .choice⟩, ⟨" a", none, .choice⟩]⟩) ∧
      ¬∃ d ∈ diagnose (conditionedKey "in:a, a") (scan "k= a"), d.message.isViolation = true := by
  refine (fun settled => ⟨settled, ?_⟩) (by rw [scan_eq_within]; decide +kernel)
  have named : "k".toList.all isNameChar = true := by decide +kernel
  have plain : ∀ c ∈ [' ', 'a'], c ≠ '\n' ∧ c ≠ '#' ∧ c ≠ ';' ∧ c ≠ '"' := by simp
  have listed : (⟨" a", none, .choice⟩ : CompletionOption) ∈
      [⟨"a", none, .choice⟩, ⟨" a", none, .choice⟩] := by simp
  intro broken
  have unlisted := ((accept_choice_violates_iff (conditionedKey "in:a, a") ⟨256, true⟩ none
    (List.all_eq_true.mp named) (by decide +kernel)
    (congrArg (Plan.run (none : Option (Provider Id Unit))) settled) listed rfl plain).mp broken).1
  exact unlisted (by decide +kernel)

/-- A choice with a blank before it is offered, and breaks its own condition when it is accepted. -/
theorem accept_spaced_choice_violates :
    (∀ c ∈ "k".toList, isNameChar c = true) ∧ (resolve? (conditionedKey "in:a, b").keys "k").isSome = true ∧
      Completer.atOffset ⟨conditionedKey "in:a, b", ⟨256, true⟩, scan "k="⟩ 2 =
        .settled (some ⟨2, none, [⟨"a", none, .choice⟩, ⟨" b", none, .choice⟩]⟩) ∧
      (∀ c ∈ " b".toList, c ≠ '\n' ∧ c ≠ '#' ∧ c ≠ ';' ∧ c ≠ '"') ∧
      diagnose (conditionedKey "in:a, b") (scan "k= b") = [.error ⟨3, 4⟩ .invalidChoice] := by
  have named : "k".toList.all isNameChar = true := by decide +kernel
  refine ⟨List.all_eq_true.mp named, by decide +kernel, ?_, ?_, ?_⟩
  · rw [scan_eq_within]
    decide +kernel
  · simp
  · rw [scan_eq_within]
    decide +kernel

end Accept

end Keyfile
