import Keyfile.Text.Integer
import Mathlib.Tactic.Common

/-! Integers written in decimals and read again. -/
namespace Keyfile

namespace Text

lemma digitsValue_toDigits (n : Nat) : digitsValue (Nat.toDigits 10 n) = n := Nat.ofDigitChars_ten_toDigits

lemma isDigit_of_mem_toDigits {n : Nat} {c : Char} (h : c ∈ Nat.toDigits 10 n) : c.isDigit = true :=
  Nat.isDigit_of_mem_toDigits (by decide) (by decide) h

/-- Digits end where something else follows. -/
lemma span_isDigit_append {digits rest : List Char} (all : ∀ c ∈ digits, c.isDigit = true)
    (stop : ∀ c ∈ rest.head?, c.isDigit = false) :
    (digits ++ rest).takeWhile Char.isDigit = digits ∧ (digits ++ rest).dropWhile Char.isDigit = rest := by
  rw [List.takeWhile_append_of_pos all, List.dropWhile_append_of_pos all]
  cases rest with
  | nil => simp
  | cons c rest => simp [stop c rfl]

lemma natural?_digits {digits : List Char} (nonempty : digits ≠ []) (all : ∀ c ∈ digits, c.isDigit = true) :
    natural? digits = some (digitsValue digits) := by
  rw [natural?, if_neg]
  simp only [Bool.or_eq_true, List.isEmpty_iff, Bool.not_eq_true', List.all_eq_false]
  rintro (none_left | ⟨c, listed, other⟩)
  · exact nonempty none_left
  · exact other (all c listed)

lemma natural?_toDigits (n : Nat) : natural? (Nat.toDigits 10 n) = some n := by
  rw [natural?_digits Nat.toDigits_ne_nil fun c hc => isDigit_of_mem_toDigits hc, digitsValue_toDigits]

/-- No zero stands before other digits. -/
lemma exists_toDigits_eq_cons {n : Nat} (pos : 0 < n) : ∃ c cs, Nat.toDigits 10 n = c :: cs ∧ c ≠ '0' := by
  induction n using Nat.strongRecOn with
  | ind n ih =>
    by_cases small : n < 10
    · refine ⟨n.digitChar, [], Nat.toDigits_of_lt_base small, ?_⟩
      have : ∀ m < 10, 0 < m → m.digitChar ≠ '0' := by decide
      exact this n small pos
    · obtain ⟨c, cs, split, other⟩ := ih (n / 10) (by omega) (by omega)
      refine ⟨c, cs ++ [(n % 10).digitChar], ?_, other⟩
      rw [Nat.toDigits_of_base_le (by decide) (by omega), split]
      rfl

lemma int64?_unsigned {c : Char} (digit : c.isDigit = true) (cs : List Char) :
    int64? (c :: cs) = (natural? (c :: cs)).bind fun n => asInt64 n := by
  unfold int64?
  split
  next same =>
    rw [(List.cons.inj same).1] at digit
    exact absurd digit (by decide)
  next same =>
    rw [(List.cons.inj same).1] at digit
    exact absurd digit (by decide)
  next => rfl

/-- A written integer is read again if 64 bits hold it. -/
lemma int64?_decimal (n : Int) : int64? (decimal n) = asInt64 n := by
  cases n with
  | ofNat n =>
    obtain ⟨c, cs, split⟩ := List.exists_cons_of_ne_nil (Nat.toDigits_ne_nil (n := n) (b := 10))
    have digit : c.isDigit = true := isDigit_of_mem_toDigits (n := n) (by rw [split]; simp)
    have read := natural?_toDigits n
    rw [split] at read
    rw [decimal, split, int64?_unsigned digit, read]
    rfl
  | negSucc n =>
    rw [decimal, int64?, natural?_toDigits, Option.bind_some]
    exact congrArg asInt64 (Int.neg_ofNat_succ n)

lemma int64?_fits {cs : List Char} {n : Int} (h : int64? cs = some n) : minInt64 ≤ n ∧ n ≤ maxInt64 := by
  have fits : ∀ m : Int, asInt64 m = some n → minInt64 ≤ n ∧ n ≤ maxInt64 := by
    intro m held
    rw [asInt64] at held
    split_ifs at held with bounds
    exact Option.some.inj held ▸ bounds
  unfold int64? at h
  split at h <;> obtain ⟨_, -, held⟩ := Option.bind_eq_some_iff.mp h <;> exact fits _ held

end Text

/-- Integers of 64 bits are told apart by their decimals. -/
lemma decimalString_inj {m n : Int} (fits : Text.minInt64 ≤ m ∧ m ≤ Text.maxInt64)
    (h : decimalString m = decimalString n) : m = n := by
  have read := congrArg (fun s => Text.int64? s.toList) h
  simp only [decimalString, String.toList_ofList, Text.int64?_decimal] at read
  rw [Text.asInt64, if_pos fits, Text.asInt64] at read
  split_ifs at read
  exact Option.some.inj read

end Keyfile
