import Keyfile.Proofs.NumberClass

/-! The two sides of a rule check a value on their own: the default and the condition, and the type. Each says one
thing at most, and a value outside its bounds is an integer, so that it is of both number types. -/
namespace Keyfile

namespace Rule

/-- The rule with nothing said of the type. -/
def withoutType (r : Rule) : Rule := { r with valueType := none }

/-- The rule with nothing said of the content. -/
def withoutContent (r : Rule) : Rule := { r with defaultValue := none, conditionText := none }

variable (r : Rule) (value : String) (key span : Span)

lemma check_withoutType : r.withoutType.check value key span = r.checkContent value key span :=
  List.append_nil _

lemma check_withoutContent : r.withoutContent.check value key span = r.checkType value span := by
  rw [check, withoutContent, checkContent, if_neg (by simp)]
  rfl

lemma length_checkContent_le : (r.checkContent value key span).length ≤ 1 := by
  rw [checkContent]
  split_ifs
  · exact Nat.le_refl 1
  · exact Option.length_toList_le

lemma length_checkType_le : (r.checkType value span).length ≤ 1 := Option.length_toList_le

end Rule

section Integers
open Text

lemma eq_of_asInt64 {m n : ℤ} (h : asInt64 m = some n) : n = m := by
  rw [asInt64] at h
  split_ifs at h
  exact (Option.some.inj h).symm

/-- An integer is written with digits behind at most one sign. -/
lemma exists_digits_of_int64? {cs : List Char} {n : ℤ} (h : int64? cs = some n) :
    ∃ sign digits, cs = signChars sign ++ digits ∧ digits ≠ [] ∧ (∀ c ∈ digits, c.isDigit = true) ∧
      n = signed sign (digitsValue digits : ℤ) := by
  have written : ∀ (sign : Option Sign) (digits : List Char),
      ((natural? digits).bind fun k => asInt64 (signed sign (k : ℤ))) = some n →
      digits ≠ [] ∧ (∀ c ∈ digits, c.isDigit = true) ∧ n = signed sign (digitsValue digits : ℤ) := by
    intro sign digits read
    obtain ⟨k, digital, fits⟩ := Option.bind_eq_some_iff.mp read
    obtain ⟨nonempty, all, rfl⟩ := digits_of_natural? digital
    exact ⟨nonempty, all, eq_of_asInt64 fits⟩
  unfold int64? at h
  split at h
  next cs => exact ⟨some .plus, cs, rfl, written (some .plus) cs h⟩
  next cs => exact ⟨some .minus, cs, rfl, written (some .minus) cs h⟩
  next => exact ⟨none, cs, rfl, written none cs h⟩

/-- An integer of 64 bits is written as a decimal number of the same value. -/
lemma exists_numeral_of_int64? {cs : List Char} {n : ℤ} (h : int64? cs = some n) :
    ∃ l : Numeral, l.chars = cs ∧ l.value = n := by
  obtain ⟨sign, digits, rfl, nonempty, areDigits, rfl⟩ := exists_digits_of_int64? h
  refine ⟨⟨sign, digits, none, none, by simpa using areDigits, by simpa using nonempty⟩, ?_, ?_⟩
  · simp [Numeral.chars, Numeral.tail]
  · simp [Numeral.value, Numeral.decimals, Numeral.exponent, digitsValue, signed]

/-- An integer of 64 bits is far from infinite in double precision. -/
lemma isFloat_of_int64? {cs : List Char} {n : ℤ} (h : int64? cs = some n) : isFloat cs = true := by
  obtain ⟨l, rfl, value⟩ := exists_numeral_of_int64? h
  obtain ⟨low, high⟩ := int64?_fits h
  have small : |n| < (overflowBound : ℤ) := by
    have bound : 0x8000000000000000 < overflowBound := by decide +kernel
    have bounds : |n| ≤ 0x8000000000000000 := abs_le.mpr ⟨low, by rw [maxInt64] at high; omega⟩
    omega
  rw [isFloat_chars, roundsToInfinity_iff (abs_nonneg _), value, not_le]
  exact_mod_cast small

/-- Only an integer of 64 bits is found out of range. -/
lemma exists_int64_of_outOfRange {condition : Condition} {value : String} {low high : ℤ}
    (h : condition.violation? value = some (.outOfRange low high)) : ∃ n, int64? value.toList = some n := by
  cases condition with
  | oneOf values =>
    rw [Condition.violation?] at h
    split_ifs at h
    cases h
  | between _ _ =>
    cases read : int64? value.toList with
    | none => simp [Condition.violation?, read] at h
    | some n => exact ⟨n, rfl⟩
  | unsupported => cases h

/-- A number for both number types is refused as a truth value only. -/
lemma mismatch?_of_number {type : ValueType} {value : List Char} {message : Message} (int : isInt value = true)
    (float : isFloat value = true) (h : type.mismatch? value = some message) : message = .notBool := by
  cases type with
  | float => simp [ValueType.mismatch?, float] at h
  | int => simp [ValueType.mismatch?, int] at h
  | bool =>
    rw [ValueType.mismatch?] at h
    split_ifs at h
    exact (Option.some.inj h).symm
  | _ => cases h

lemma message_of_number {rule : Rule} {value : String} {key span : Span} {d : Diagnostic}
    (int : isInt value.toList = true) (float : isFloat value.toList = true) (h : d ∈ rule.check value key span) :
    d.message ≠ .notInt ∧ d.message ≠ .notFloat := by
  rcases List.mem_append.mp h with content | typed
  · obtain ⟨first, rest, split⟩ := List.append_of_mem content
    obtain ⟨-, -, rfl | ⟨_, rfl, rfl | ⟨low, high, rfl⟩⟩⟩ := checkContent_eq_append_cons split
    · exact ⟨Message.noConfusion, Message.noConfusion⟩
    · exact ⟨Message.noConfusion, Message.noConfusion⟩
    · exact ⟨Message.noConfusion, Message.noConfusion⟩
  · obtain ⟨message, found, rfl⟩ := Option.map_eq_some_iff.mp (Option.mem_toList.mp typed)
    obtain ⟨type, -, mismatch⟩ := Option.bind_eq_some_iff.mp found
    rw [mismatch?_of_number int float mismatch]
    exact ⟨Message.noConfusion, Message.noConfusion⟩

end Integers

/-- The facets of a rule do not depend on each other. A value is checked against the content and against the type, and
each finds one fault at most. A value out of range is an integer of 64 bits; such a text is a number of the same value
for every type of numbers, so that no type refuses it as an integer or as a floating point number. -/
theorem check_facets_independent (r : Rule) (value : String) (key span : Span) :
    r.check value key span = r.withoutType.check value key span ++ r.withoutContent.check value key span ∧
    (r.withoutType.check value key span).length ≤ 1 ∧ (r.withoutContent.check value key span).length ≤ 1 ∧
    (∀ d ∈ r.check value key span, ∀ low high, d.message = .outOfRange low high →
      ∀ type, ∀ other ∈ ({ r with valueType := type }).check value key span,
        other.message ≠ .notInt ∧ other.message ≠ .notFloat) ∧
    ∀ n, Text.int64? value.toList = some n →
      isInt value.toList = true ∧ isFloat value.toList = true ∧
        ∃ l : Text.Numeral, l.chars = value.toList ∧ l.value = n := by
  have integers : ∀ n, Text.int64? value.toList = some n →
      isInt value.toList = true ∧ isFloat value.toList = true ∧
        ∃ l : Text.Numeral, l.chars = value.toList ∧ l.value = n :=
    fun n read => ⟨by rw [isInt, read]; rfl, isFloat_of_int64? read, exists_numeral_of_int64? read⟩
  refine ⟨?_, ?_, ?_, ?_, integers⟩
  · rw [Rule.check_withoutType, Rule.check_withoutContent, Rule.check]
  · rw [Rule.check_withoutType]
    exact r.length_checkContent_le value key span
  · rw [Rule.check_withoutContent]
    exact r.length_checkType_le value span
  · intro d reported low high said type other typed
    obtain ⟨-, broken⟩ :=
      (check_message_iff r value key span (show (Message.outOfRange low high).isViolation = true from rfl)).mp
        ⟨d, reported, said⟩
    obtain ⟨condition, -, violated⟩ := Option.bind_eq_some_iff.mp broken
    obtain ⟨n, read⟩ := exists_int64_of_outOfRange violated
    obtain ⟨int, float, -⟩ := integers n read
    exact message_of_number int float typed

/-- An integer with a sign and leading zeros, too large for its range. -/
theorem check_facets_independent_padded :
    (Diagnostic.error ⟨5, 10⟩ (.outOfRange 0 300) ∈
      Rule.check ⟨some .int, none, none, some "between:0,300"⟩ "+0301" ⟨0, 4⟩ ⟨5, 10⟩) ∧
    (∀ d ∈ Rule.check ⟨some .float, none, none, some "between:0,300"⟩ "+0301" ⟨0, 4⟩ ⟨5, 10⟩,
      d.message ≠ .notInt ∧ d.message ≠ .notFloat) ∧
    Text.int64? "+0301".toList = some 301 ∧ isFloat "+0301".toList = true := by
  have reported : Diagnostic.error ⟨5, 10⟩ (.outOfRange 0 300) ∈
      Rule.check ⟨some .int, none, none, some "between:0,300"⟩ "+0301" ⟨0, 4⟩ ⟨5, 10⟩ := by decide +kernel
  obtain ⟨-, -, -, excluded, integers⟩ :=
    check_facets_independent ⟨some .int, none, none, some "between:0,300"⟩ "+0301" ⟨0, 4⟩ ⟨5, 10⟩
  have read : Text.int64? "+0301".toList = some 301 := by decide +kernel
  exact ⟨reported, excluded _ reported 0 300 rfl (some .float), read, (integers 301 read).2.1⟩

end Keyfile
