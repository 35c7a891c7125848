import Keyfile.Proofs.KnownNames
import Keyfile.Proofs.Numerals
import Keyfile.Proofs.ValueCompletion

/-! Numbers for the scanner and for the rules. The scanner takes exactly the decimal numbers for numbers. Of these, a
rule takes all for floating point numbers but those that are infinite in double precision, and besides them only
`Infinity`. So a key of this type complains about a scanned number only if the number is too large. -/
namespace Keyfile

section Classes
open Text

/-- The first character of a literal behind its sign is no second sign. -/
lemma lead_of_magnitude? {cs : List Char} {m : Magnitude} (h : magnitude? cs = some m) :
    ∃ c rest, unsigned cs = c :: rest ∧ c ≠ '+' ∧ c ≠ '-' := by
  rcases Numeral.cases_of_magnitude? h with ⟨n, rfl⟩ | ⟨-, c, rest, split, letter⟩
  · obtain ⟨c, rest, split, lead⟩ := n.exists_lead
    obtain ⟨plus, minus, -⟩ := lead_ne lead
    exact ⟨c, rest, n.unsigned_chars.trans split, plus, minus⟩
  · refine ⟨c, rest, split, ?_, ?_⟩ <;> (rintro rfl; revert letter; decide)

/-- Taking all signs off a literal takes one off at most. -/
lemma dropWhile_signs {cs : List Char} {m : Magnitude} (h : magnitude? cs = some m) :
    (cs.dropWhile fun c => c == '+' || c == '-') = unsigned cs := by
  obtain ⟨c, rest, split, plus, minus⟩ := lead_of_magnitude? h
  obtain ⟨sign, written, -⟩ := exists_sign cs
  have stop : ((c :: rest).dropWhile fun c => c == '+' || c == '-') = c :: rest :=
    List.dropWhile_cons_of_neg (by simp [plus, minus])
  rw [split] at written ⊢
  rw [written]
  cases sign with
  | none => exact stop
  | some sign => cases sign <;> exact stop

/-- The scanner takes exactly the decimal numbers for numbers. -/
theorem isNumber_iff (v : List Char) : isNumber v = true ↔ ∃ n : Numeral, n.chars = v := by
  constructor
  · intro h
    rw [isNumber, Bool.and_eq_true, Option.isSome_iff_exists] at h
    obtain ⟨first, m, read⟩ := h
    rcases Numeral.cases_of_magnitude? read with numeral | ⟨-, c, rest, split, letter⟩
    · exact numeral
    · -- a letter comes first, so no digit does
      have plain : c.isDigit = false ∧ c ≠ '.' := by
        have other : ¬(c.isDigit = true ∨ c = '.') := by
          intro lead
          obtain ⟨-, -, ne_i, ne_n⟩ := lead_ne lead
          exact letter.elim ne_i ne_n
        simpa using other
      rw [dropWhile_signs read, split, List.dropWhile_cons_of_neg (by simpa using plain.2)] at first
      simp [plain.1] at first
  · rintro ⟨n, rfl⟩
    obtain ⟨c, rest, split, digit⟩ := n.exists_digit
    rw [isNumber, dropWhile_signs n.magnitude?_chars, n.unsigned_chars, split, n.magnitude?_chars]
    simpa using digit

/-- Of the decimal numbers, those are floating point numbers that are finite in double precision. -/
theorem isFloat_chars (n : Numeral) : isFloat n.chars = true ↔ ¬RoundsToInfinity |n.value| := by
  obtain ⟨c, rest, split, lead⟩ := n.exists_lead
  have no_word : (n.whole ++ n.tail == "Infinity".toList) = false := by
    rw [split, beq_eq_false_iff_ne]
    rintro ⟨⟩
    revert lead
    decide
  rw [roundsToInfinity_iff (abs_nonneg _), n.abs_value, ← overflows_iff, isFloat, n.magnitude?_chars]
  simp only [dropWhile_signs n.magnitude?_chars, n.unsigned_chars, no_word, Bool.and_false, Bool.or_false,
    Magnitude.isFinite, Bool.not_eq_true']
  simp

/-- Besides decimal numbers, only `Infinity` is a floating point number. -/
theorem isFloat_cases {v : List Char} (h : isFloat v = true) :
    (∃ sign, v = signChars sign ++ "Infinity".toList) ∨ isNumber v = true := by
  cases read : magnitude? v with
  | none => simp [isFloat, read] at h
  | some m =>
    rcases Numeral.cases_of_magnitude? read with numeral | ⟨rfl | rfl, -⟩
    · exact .inr ((isNumber_iff v).mpr numeral)
    · left
      obtain ⟨sign, written, -⟩ := exists_sign v
      rw [isFloat, read] at h
      simp only [dropWhile_signs read, Magnitude.isFinite, Magnitude.isInfinite, Bool.false_or, Bool.true_and,
        beq_iff_eq] at h
      rw [h] at written
      exact ⟨sign, written⟩
    · simp [isFloat, read, Magnitude.isFinite, Magnitude.isInfinite] at h

end Classes

section Scanned
open Adjacency
variable {schema : Schema} {text : String}

/-- A lexeme of this kind is a decimal number. -/
lemma exists_numeral_of_lexeme {s : LineState} {cs : List Char} {l : Lexeme} (h : l ∈ lexemes s cs)
    (kind : l.kind? = some .number) : ∃ n : Text.Numeral, n.chars = l.chars := by
  obtain ⟨s', rest, starts⟩ := exists_starts_of_mem h
  obtain ⟨c, cs, -, -, first⟩ := starts.inversion
  rw [kind] at first
  by_cases quote : c = '"'
  · rw [quote] at first
    rw [← first] at kind
    cases kind
  · rw [← isNumber_iff]
    change valueLexeme (c :: cs) = l at first
    rw [valueLexeme_unquoted quote] at first
    rw [← first] at kind ⊢
    simp only [valueKind, Option.some.injEq] at kind ⊢
    split_ifs at kind with boolean number
    exact number

/-- Nothing is blank in a decimal number. -/
lemma solid_chars (n : Text.Numeral) : ∀ c ∈ n.chars, Text.isBlank c = false := by
  obtain ⟨sign, whole, fraction, scale, areDigits, nonempty⟩ := n
  have digits : ∀ c ∈ whole ++ fraction.getD [], Text.isBlank c = false :=
    fun c hc => Text.isBlank_of_isDigit (areDigits c hc)
  have signs : ∀ (sign : Option Text.Sign), ∀ c ∈ Text.signChars sign, Text.isBlank c = false := by
    rintro (_ | _ | _) c hc
    · cases hc
    · obtain rfl := List.mem_singleton.mp hc
      rfl
    · obtain rfl := List.mem_singleton.mp hc
      rfl
  have scaled : ∀ c ∈ (scale.map Text.Scale.chars).getD [], Text.isBlank c = false := by
    cases scale with
    | none => simp
    | some s =>
      simp only [Option.map_some, Option.getD_some, Text.Scale.chars, List.forall_mem_cons, List.forall_mem_append]
      refine ⟨?_, signs s.sign, fun c hc => Text.isBlank_of_isDigit (s.areDigits c hc)⟩
      rcases s.isMark with mark | mark <;> rw [mark] <;> rfl
  rw [List.forall_mem_append] at digits
  simp only [Text.Numeral.chars, Text.Numeral.tail, List.forall_mem_append]
  refine ⟨signs sign, digits.1, ?_, scaled⟩
  cases fraction with
  | none => simp
  | some f => exact List.forall_mem_cons.mpr ⟨rfl, digits.2⟩

lemma mismatch?_eq_notFloat_iff (type : ValueType) (value : List Char) :
    type.mismatch? value = some .notFloat ↔ type = .float ∧ isFloat value = false := by
  cases type with
  | float => cases valid : isFloat value <;> simp [ValueType.mismatch?, valid]
  | int => cases valid : isInt value <;> simp [ValueType.mismatch?, valid]
  | bool => cases valid : isBool value <;> simp [ValueType.mismatch?, valid]
  | _ => simp [ValueType.mismatch?]

/-- That a value is no floating point number is said of its type. -/
lemma mem_checkType_of_notFloat {rule : Rule} {value : String} {key span : Span} {d : Diagnostic}
    (h : d ∈ rule.check value key span) (said : d.message = .notFloat) : d ∈ rule.checkType value span := by
  rcases List.mem_append.mp h with content | typed
  · obtain ⟨first, rest, split⟩ := List.append_of_mem content
    obtain ⟨-, -, rfl | ⟨_, rfl, rfl | ⟨low, high, rfl⟩⟩⟩ := checkContent_eq_append_cons split <;> cases said
  · exact typed

lemma notFloat_mem_check_iff (rule : Rule) (value : String) (key span : Span) :
    (∃ d ∈ rule.check value key span, d.message = .notFloat) ↔
      rule.valueType = some .float ∧ isFloat value.toList = false := by
  constructor
  · rintro ⟨d, hd, said⟩
    have typed := mem_checkType_of_notFloat hd said
    obtain ⟨message, found, rfl⟩ := Option.map_eq_some_iff.mp (Option.mem_toList.mp typed)
    obtain ⟨type, named, mismatch⟩ := Option.bind_eq_some_iff.mp found
    obtain rfl : message = .notFloat := said
    obtain ⟨rfl, other⟩ := (mismatch?_eq_notFloat_iff type _).mp mismatch
    exact ⟨named, other⟩
  · rintro ⟨named, other⟩
    refine ⟨.error span .notFloat, List.mem_append_right _ ?_, rfl⟩
    rw [Rule.checkType, named, Option.bind_some, (mismatch?_eq_notFloat_iff .float _).mpr ⟨rfl, other⟩]
    exact List.mem_singleton_self _

/-- It is said by the rule of the key that the value belongs to. -/
lemma lint_notFloat {size : Nat} {ts : List Token} {d : Diagnostic} (h : d ∈ lint schema size none none ts)
    (said : d.message = .notFloat) :
    ∃ us key assign value vs rule, ts = us ++ key :: assign :: value :: vs ∧ ruleOf? schema key.text = some rule ∧
      d.span = value.span ∧ d ∈ rule.check (trimmed value.text) key.span value.span := by
  obtain ⟨before, after, split⟩ := List.append_of_mem h
  obtain ⟨us, vs, first, rest, rfl, reported, -⟩ := lint_eq_append_cons schema size split
  rcases append_eq_append_cons reported with ⟨middle, -, found⟩ | ⟨middle, broken, -⟩
  · cases vs with
    | nil => simp at found
    | cons value vs =>
      obtain ⟨-, -, ⟨-, rfl⟩ | ⟨-, rfl⟩⟩ | ⟨key, rule, older, -, lastKind, -, ruled, checked⟩ :=
        findings_eq_append_cons schema found
      · cases said
      · cases said
      obtain ⟨assign, last, -⟩ := Option.map_eq_some_iff.mp lastKind
      obtain ⟨us, rfl⟩ := slide_eq_some (Prod.ext older last)
      have member : d ∈ rule.check (trimmed value.text) key.span value.span := by
        rw [checked]
        simp
      refine ⟨us, key, assign, value, vs, rule, by simp, ruled, ?_, member⟩
      exact (mem_checkType (mem_checkType_of_notFloat member said)).1
  · -- what breaks tokens off says nothing of values
    cases last : (slide none none us).2 with
    | none => simp [last] at broken
    | some token =>
      rw [last, Option.map_some, Option.getD_some] at broken
      obtain ⟨-, -, ⟨-, rfl⟩ | ⟨-, -, rfl⟩ | ⟨-, -, rfl⟩ | ⟨-, -, rfl⟩⟩ := interruption_eq_append_cons broken <;>
        cases said

section Assigned
variable {us vs : List Token} {key assign value : Token} {rule : Rule}
  (split : tokens 0 (lexemes .fresh text.toList) = us ++ key :: assign :: value :: vs)
include split

/-- A number is written in its place, and takes up room there. -/
lemma exists_numeral_of_token (number : value.kind = .number) :
    ∃ n : Text.Numeral, value.text = String.ofList n.chars ∧ value.span.start < value.span.stop := by
  obtain ⟨before, chars, after, whole, -, place, -⟩ :=
    tokens_eq_append_cons (show _ = (us ++ [key, assign]) ++ value :: vs by simpa using split)
  have member : ⟨some value.kind, chars⟩ ∈ lexemes .fresh text.toList := by simp [whole]
  obtain ⟨n, written⟩ := exists_numeral_of_lexeme member (congrArg some number)
  have nonempty : Text.bytes chars ≠ 0 := by
    intro empty
    obtain ⟨c, cs, lead, -⟩ := n.exists_lead
    have nothing := n.unsigned_chars.symm.trans (congrArg Text.unsigned (written.trans (Text.eq_nil_of_bytes empty)))
    rw [lead] at nothing
    cases nothing
  refine ⟨n, ?_, ?_⟩
  · rw [place, written]
  · rw [place]
    exact Nat.lt_add_of_pos_right (Nat.pos_of_ne_zero nonempty)

/-- A number assigned to a key is reported as no floating point number exactly if the rule of the key says so. -/
lemma notFloat_iff (keyKind : key.kind = .keyName) (assignKind : assign.kind = .assign)
    (number : value.kind = .number) (ruled : ruleOf? schema key.text = some rule)
    (typed : rule.valueType = some .float) :
    (∃ d ∈ diagnose schema (scan text), d.message = .notFloat ∧ d.span = value.span) ↔
      isFloat (trimmed value.text).toList = false := by
  have placed : tokens 0 (lexemes .fresh text.toList) = (us ++ [key, assign]) ++ value :: vs := by simpa using split
  constructor
  · rintro ⟨d, reported, said, spot⟩
    rw [diagnose_scan] at reported
    obtain ⟨us', key', assign', value', vs', rule', split', ruled', spot', checked⟩ := lint_notFloat reported said
    obtain ⟨n, -, wide⟩ := exists_numeral_of_token split number
    have same : value.span = value'.span := spot.symm.trans spot'
    have placed' : tokens 0 (lexemes .fresh text.toList) = (us' ++ [key', assign']) ++ value' :: vs' := by
      simpa using split'
    obtain ⟨front, rfl, -⟩ := eq_of_overlap placed placed' (same ▸ wide) (same ▸ wide)
    obtain ⟨-, pair⟩ := List.append_inj' front rfl
    obtain ⟨rfl, rfl⟩ : key = key' ∧ assign = assign' := by simpa using pair
    obtain rfl : rule = rule' := Option.some.inj (ruled.symm.trans ruled')
    exact ((notFloat_mem_check_iff _ _ _ _).mp ⟨d, checked, said⟩).2
  · intro other
    obtain ⟨d, checked, said⟩ := (notFloat_mem_check_iff rule (trimmed value.text) key.span value.span).mpr ⟨typed, other⟩
    refine ⟨d, mem_diagnose_of_findings placed ?_, said, (mem_checkType (mem_checkType_of_notFloat checked said)).1⟩
    have last : slide none none (us ++ [key, assign]) = (some key, some assign) := by
      rw [show us ++ [key, assign] = us ++ [key] ++ [assign] by simp, slide_append_singleton, slide_append_singleton]
    simpa [last, findings, keyKind, assignKind, number, ruled, Kind.isLiteral, Kind.literals] using checked

end Assigned

/-- The number class of the scanner and the floating point rule agree. Whatever is a floating point number is
`Infinity` or a number; the numbers are the decimal numbers, and of these the floating point numbers are those that
stay finite in double precision. So a key of this type is reported for a scanned number exactly if the number does
not. -/
theorem number_class_agrees_with_float :
    (∀ v : List Char, isFloat v = true →
      (∃ sign, v = Text.signChars sign ++ "Infinity".toList) ∨ isNumber v = true) ∧
    (∀ v : List Char, isNumber v = true ↔ ∃ n : Text.Numeral, n.chars = v) ∧
    (∀ n : Text.Numeral, isFloat n.chars = true ↔ ¬Text.RoundsToInfinity |n.value|) ∧
    ∀ (schema : Schema) (text : String) (nodes rest : List Node) (key assign value : Node) (rule : Rule),
      (scan text).content = nodes ++ key :: assign :: value :: rest → key.kind = .keyName →
      assign.kind = .assign → value.kind = .number →
      ruleOf? schema ((scan text).slice key.span) = some rule → rule.valueType = some .float →
      ∃ n : Text.Numeral, (scan text).slice value.span = String.ofList n.chars ∧
        ((∃ d ∈ diagnose schema (scan text), d.message = .notFloat ∧ d.span = value.span) ↔
          Text.RoundsToInfinity |n.value|) := by
  refine ⟨fun v => isFloat_cases, isNumber_iff, isFloat_chars, ?_⟩
  intro schema text nodes rest key assign value rule content keyKind assignKind number ruled typed
  rw [content_scan] at content
  obtain ⟨us, _, split, rfl, fromKey⟩ := List.map_eq_append_iff.mp content
  obtain ⟨k, _, rfl, rfl, fromAssign⟩ := List.map_eq_cons_iff.mp fromKey
  obtain ⟨a, _, rfl, rfl, fromValue⟩ := List.map_eq_cons_iff.mp fromAssign
  obtain ⟨t, vs, rfl, rfl, rfl⟩ := List.map_eq_cons_iff.mp fromValue
  change k.kind = .keyName at keyKind
  change a.kind = .assign at assignKind
  change t.kind = .number at number
  have key_text : (scan text).slice k.span = k.text := slice_of_mem_tokens (by simp [split])
  have value_text : (scan text).slice t.span = t.text := slice_of_mem_tokens (by simp [split])
  obtain ⟨n, written, -⟩ := exists_numeral_of_token split number
  have solid : trimmed t.text = String.ofList n.chars := by
    rw [written, trimmed, String.toList_ofList, Text.trim_of_solid (solid_chars n)]
  refine ⟨n, value_text.trans written, ?_⟩
  rw [show k.node.span = k.span from rfl, key_text] at ruled
  rw [show t.node.span = t.span from rfl, notFloat_iff split keyKind assignKind number ruled typed, solid,
    String.toList_ofList, ← Bool.not_eq_true, isFloat_chars, not_not]

/-- A key of this type. -/
def floatKey : Schema := ⟨[], [⟨"k", "K", ⟨.value, some { Rule.empty with valueType := some .float }⟩, none⟩]⟩

theorem number_class_agrees_with_float_too_large :
    (scan "k = -1.8e308 # m").content =
      [⟨.keyName, ⟨0, 1⟩, []⟩, ⟨.assign, ⟨2, 3⟩, []⟩, ⟨.number, ⟨4, 12⟩, []⟩, ⟨.comment, ⟨13, 16⟩, []⟩] ∧
    (∃ d ∈ diagnose floatKey (scan "k = -1.8e308 # m"), d.message = .notFloat ∧ d.span = ⟨4, 12⟩) ∧
    ∃ n : Text.Numeral, "-1.8e308" = String.ofList n.chars ∧ Text.RoundsToInfinity |n.value| := by
  have content : (scan "k = -1.8e308 # m").content =
      [] ++ ⟨.keyName, ⟨0, 1⟩, []⟩ :: ⟨.assign, ⟨2, 3⟩, []⟩ :: ⟨.number, ⟨4, 12⟩, []⟩ ::
        [⟨.comment, ⟨13, 16⟩, []⟩] := by
    rw [scan_eq_within]
    rfl
  have reported : ∃ d ∈ diagnose floatKey (scan "k = -1.8e308 # m"), d.message = .notFloat ∧ d.span = ⟨4, 12⟩ := by
    rw [scan_eq_within]
    decide +kernel
  have key : (scan "k = -1.8e308 # m").slice ⟨0, 1⟩ = "k" := by
    rw [scan_eq_within]
    decide +kernel
  have value : (scan "k = -1.8e308 # m").slice ⟨4, 12⟩ = "-1.8e308" := by
    rw [scan_eq_within]
    decide +kernel
  obtain ⟨n, written, large⟩ := number_class_agrees_with_float.2.2.2 floatKey "k = -1.8e308 # m" [] _ _ _ _
    { Rule.empty with valueType := some .float } content rfl rfl rfl (by rw [key]; decide +kernel) rfl
  exact ⟨content, reported, n, value.symm.trans written, large.mp reported⟩

end Scanned
end Keyfile
