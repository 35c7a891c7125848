import Keyfile.Proofs.Decimals
import Keyfile.Text.Floating
import Mathlib.Algebra.Order.Field.Power
import Mathlib.Data.Int.Log
import Mathlib.Data.Rat.Floor
import Mathlib.Tactic.FieldSimp
import Mathlib.Tactic.Linarith
import Mathlib.Tactic.Positivity

/-! Decimal numbers as they are written, with their values. A text is read as a decimal number exactly if it is written
so, and what is read has the value of what is written. Whether the value rounds to infinity in double precision is
decided by digits, without the power of ten. -/
namespace Keyfile.Text

section Grammar

/-- A sign in front of digits. -/
inductive Sign where
  | plus
  | minus
  deriving DecidableEq, Repr

/-- How a sign is written, if there is one. -/
def signChars : Option Sign → List Char
  | none => []
  | some .plus => ['+']
  | some .minus => ['-']

def signed {α : Type} [Neg α] (sign : Option Sign) (x : α) : α := if sign = some .minus then -x else x

/-- The power of ten behind a number. -/
structure Scale where
  mark : Char
  sign : Option Sign
  digits : List Char
  isMark : mark = 'e' ∨ mark = 'E'
  nonempty : digits ≠ []
  areDigits : ∀ c ∈ digits, c.isDigit = true

def Scale.chars (s : Scale) : List Char := s.mark :: (signChars s.sign ++ s.digits)

def Scale.exponent (s : Scale) : ℤ := signed s.sign (digitsValue s.digits : ℤ)

/-- A decimal number as it is written. It has a digit before or behind the point, and need not have a point. -/
structure Numeral where
  sign : Option Sign
  whole : List Char
  /-- What stands behind the point, if there is a point. -/
  fraction : Option (List Char)
  scale : Option Scale
  areDigits : ∀ c ∈ whole ++ fraction.getD [], c.isDigit = true
  nonempty : whole ++ fraction.getD [] ≠ []

namespace Numeral

/-- The digits behind the point. -/
def decimals (n : Numeral) : List Char := n.fraction.getD []

/-- What follows the digits before the point. -/
def tail (n : Numeral) : List Char :=
  ((n.fraction.map ('.' :: ·)).getD []) ++ (n.scale.map Scale.chars).getD []

def chars (n : Numeral) : List Char := signChars n.sign ++ (n.whole ++ n.tail)

def exponent (n : Numeral) : ℤ := (n.scale.map Scale.exponent).getD 0

/-- The number that is written. -/
def value (n : Numeral) : ℚ :=
  signed n.sign
    ((digitsValue n.whole + digitsValue n.decimals / 10 ^ n.decimals.length) * 10 ^ n.exponent)

end Numeral
end Grammar

section Reading

lemma digitsValue_append (xs ys : List Char) :
    digitsValue (xs ++ ys) = 10 ^ ys.length * digitsValue xs + digitsValue ys :=
  (Nat.ofDigitChars_append 0).trans Nat.ofDigitChars_eq_ofDigitChars_zero

lemma digits_of_natural? {cs : List Char} {n : Nat} (h : natural? cs = some n) :
    cs ≠ [] ∧ (∀ c ∈ cs, c.isDigit = true) ∧ digitsValue cs = n := by
  rw [natural?] at h
  split_ifs at h with refused
  simp only [Bool.or_eq_true, List.isEmpty_iff, Bool.not_eq_true', List.all_eq_false, not_or] at refused
  refine ⟨refused.1, ?_, Option.some.inj h⟩
  intro c listed
  by_contra other
  exact refused.2 ⟨c, listed, other⟩

/-- A number starts with no sign and with no letter of a word. -/
lemma lead_ne {c : Char} (lead : c.isDigit = true ∨ c = '.') :
    c ≠ '+' ∧ c ≠ '-' ∧ c.toLower ≠ 'i' ∧ c.toLower ≠ 'n' := by
  rcases lead with digit | rfl
  · have not_upper : ¬ (c.val ≥ 'A'.val ∧ c.val ≤ 'Z'.val) := by
      simp only [Char.isDigit, Bool.and_eq_true, decide_eq_true_eq, ge_iff_le, UInt32.le_iff_toNat_le] at digit ⊢
      intro upper
      have := digit.2.trans_lt (by decide : (57 : UInt32).toNat < 'A'.val.toNat)
      omega
    have small : c.toLower = c := dif_neg not_upper
    rw [small]
    refine ⟨?_, ?_, ?_, ?_⟩ <;> (rintro rfl; exact absurd digit (by decide))
  · decide

/-- A sign is taken off where no second one follows. -/
lemma unsigned_signChars (sign : Option Sign) {cs : List Char} (plain : ∀ c ∈ cs.head?, c ≠ '+' ∧ c ≠ '-') :
    unsigned (signChars sign ++ cs) = cs := by
  cases sign with
  | some sign => cases sign <;> rfl
  | none =>
    cases cs with
    | nil => rfl
    | cons c cs =>
      obtain ⟨plus, minus⟩ := plain c rfl
      unfold unsigned
      split
      next same => exact absurd (List.cons.inj same).1 plus
      next same => exact absurd (List.cons.inj same).1 minus
      next => rfl

lemma exists_sign (cs : List Char) :
    ∃ sign, cs = signChars sign ++ unsigned cs ∧ (cs.head? = some '-' ↔ sign = some .minus) := by
  cases cs with
  | nil => exact ⟨none, rfl, by simp⟩
  | cons c cs =>
    by_cases plus : c = '+'
    · subst plus
      exact ⟨some .plus, rfl, by simp⟩
    by_cases minus : c = '-'
    · subst minus
      exact ⟨some .minus, rfl, by simp⟩
    have plain : unsigned (c :: cs) = c :: cs := unsigned_signChars none (by simp [plus, minus])
    exact ⟨none, plain.symm, by simpa using minus⟩

lemma exponent?_mark {c : Char} (isMark : c = 'e' ∨ c = 'E') (cs : List Char) :
    exponent? (c :: cs) =
      (natural? (unsigned cs)).map fun n : ℕ => if cs.head? = some '-' then -(n : ℤ) else n := by
  rw [exponent?, if_pos isMark]
  cases natural? (unsigned cs) <;> rfl

lemma exponent?_chars (s : Scale) : exponent? s.chars = some s.exponent := by
  obtain ⟨mark, sign, digits, isMark, nonempty, areDigits⟩ := s
  have plain : ∀ c ∈ digits.head?, c ≠ '+' ∧ c ≠ '-' := by
    intro c first
    obtain ⟨plus, minus, -⟩ := lead_ne (.inl (areDigits c (List.mem_of_mem_head? first)))
    exact ⟨plus, minus⟩
  rw [Scale.chars, exponent?_mark isMark, unsigned_signChars sign plain, natural?_digits nonempty areDigits,
    Option.map_some, Scale.exponent, signed, Option.some.injEq]
  cases sign with
  | none =>
    rw [if_neg, if_neg]
    · simp
    · intro minus
      exact (plain _ minus).2 rfl
  | some sign => cases sign <;> rfl

/-- What ends a number is nothing or a power of ten. -/
lemma exists_scale {cs : List Char} {e : ℤ} (h : exponent? cs = some e) :
    ∃ scale : Option Scale, cs = (scale.map Scale.chars).getD [] := by
  cases cs with
  | nil => exact ⟨none, rfl⟩
  | cons c cs =>
    have isMark : c = 'e' ∨ c = 'E' := by
      by_contra other
      rw [exponent?, if_neg other] at h
      cases h
    rw [exponent?_mark isMark] at h
    obtain ⟨n, read, -⟩ := Option.map_eq_some_iff.mp h
    obtain ⟨nonempty, areDigits, -⟩ := digits_of_natural? read
    obtain ⟨sign, split, -⟩ := exists_sign cs
    exact ⟨some ⟨c, sign, unsigned cs, isMark, nonempty, areDigits⟩, congrArg (c :: ·) split⟩

/-- Reading digits with a point. -/
lemma decimal?_point {cs rest : List Char} (h : cs.dropWhile Char.isDigit = '.' :: rest) :
    decimal? cs =
      if (cs.takeWhile Char.isDigit).isEmpty && (rest.takeWhile Char.isDigit).isEmpty then none
      else (exponent? (rest.dropWhile Char.isDigit)).map fun e =>
        .decimal (digitsValue (cs.takeWhile Char.isDigit ++ rest.takeWhile Char.isDigit))
          (e - (rest.takeWhile Char.isDigit).length) := by
  simp only [decimal?, h]

/-- Reading digits without a point. -/
lemma decimal?_plain {cs : List Char} (h : ∀ rest, cs.dropWhile Char.isDigit ≠ '.' :: rest) :
    decimal? cs =
      if (cs.takeWhile Char.isDigit).isEmpty then none
      else (exponent? (cs.dropWhile Char.isDigit)).map fun e =>
        .decimal (digitsValue (cs.takeWhile Char.isDigit)) e := by
  rw [decimal?]
  split
  next rest same => exact absurd same (h rest)
  next => simp

lemma head?_scale {scale : Option Scale} {c : Char} (h : c ∈ ((scale.map Scale.chars).getD []).head?) :
    c.isDigit = false ∧ c ≠ '.' := by
  cases scale with
  | none => cases h
  | some s =>
    obtain rfl : s.mark = c := Option.some.inj h
    rcases s.isMark with mark | mark <;> rw [mark] <;> decide

lemma exponent?_scale (scale : Option Scale) :
    exponent? ((scale.map Scale.chars).getD []) = some ((scale.map Scale.exponent).getD 0) := by
  cases scale with
  | none => rfl
  | some s => exact exponent?_chars s

namespace Numeral

/-- What is written is read, with all digits as one number and the point in the power of ten. -/
lemma decimal?_chars (n : Numeral) :
    decimal? (n.whole ++ n.tail) =
      some (.decimal (digitsValue (n.whole ++ n.decimals)) (n.exponent - n.decimals.length)) := by
  obtain ⟨sign, whole, fraction, scale, areDigits, nonempty⟩ := n
  have stop : ∀ c ∈ ((scale.map Scale.chars).getD []).head?, c.isDigit = false := fun c hc => (head?_scale hc).1
  rw [List.forall_mem_append] at areDigits
  cases fraction with
  | none =>
    obtain ⟨taken, left⟩ := span_isDigit_append areDigits.1 stop
    have no_point : ∀ rest, (scale.map Scale.chars).getD [] ≠ '.' :: rest := by
      intro rest point
      have first : '.' ∈ ((scale.map Scale.chars).getD []).head? := by rw [point]; rfl
      exact (head?_scale first).2 rfl
    simp only [tail, decimals, exponent, Option.map_none, Option.getD_none, List.nil_append, List.append_nil] at *
    rw [decimal?_plain (by rwa [left]), taken, left, exponent?_scale, if_neg (by simpa using nonempty)]
    simp
  | some digits =>
    have point : ∀ c ∈ ('.' :: (digits ++ (scale.map Scale.chars).getD [])).head?, c.isDigit = false := by simp
    obtain ⟨taken, left⟩ := span_isDigit_append areDigits.1 point
    obtain ⟨taken', left'⟩ := span_isDigit_append areDigits.2 stop
    simp only [tail, decimals, exponent, Option.map_some, Option.getD_some, List.cons_append] at *
    rw [decimal?_point left, taken, taken', left', exponent?_scale, if_neg (by simpa using nonempty)]
    rfl

/-- What is read is written, and any sign may stand before it. -/
lemma exists_of_decimal? {cs : List Char} {m : Magnitude} (h : decimal? cs = some m) (sign : Option Sign) :
    ∃ n : Numeral, n.chars = signChars sign ++ cs := by
  have whole : ∀ c ∈ cs.takeWhile Char.isDigit, c.isDigit = true := List.all_eq_true.mp List.all_takeWhile
  by_cases point : ∃ rest, cs.dropWhile Char.isDigit = '.' :: rest
  · obtain ⟨rest, point⟩ := point
    rw [decimal?_point point] at h
    split_ifs at h with empty
    obtain ⟨e, scaled, -⟩ := Option.map_eq_some_iff.mp h
    obtain ⟨scale, written⟩ := exists_scale scaled
    have behind : ∀ c ∈ rest.takeWhile Char.isDigit, c.isDigit = true := List.all_eq_true.mp List.all_takeWhile
    refine ⟨⟨sign, cs.takeWhile Char.isDigit, some (rest.takeWhile Char.isDigit), scale, ?_, ?_⟩, ?_⟩
    · exact List.forall_mem_append.mpr ⟨whole, behind⟩
    · simpa using empty
    · simp [chars, tail, ← written, ← point]
  · rw [decimal?_plain (not_exists.mp point)] at h
    split_ifs at h with empty
    obtain ⟨e, scaled, -⟩ := Option.map_eq_some_iff.mp h
    obtain ⟨scale, written⟩ := exists_scale scaled
    refine ⟨⟨sign, cs.takeWhile Char.isDigit, none, scale, ?_, ?_⟩, ?_⟩
    · simpa using whole
    · simpa using empty
    · simp [chars, tail, ← written]

/-- A number starts with a digit or a point. -/
lemma exists_lead (n : Numeral) : ∃ c cs, n.whole ++ n.tail = c :: cs ∧ (c.isDigit = true ∨ c = '.') := by
  obtain ⟨sign, whole, fraction, scale, areDigits, nonempty⟩ := n
  cases whole with
  | cons c whole => exact ⟨c, _, rfl, .inl (areDigits c (by simp))⟩
  | nil =>
    cases fraction with
    | none => exact absurd rfl nonempty
    | some digits => exact ⟨'.', _, rfl, .inr rfl⟩

/-- A digit follows behind a point in front. -/
lemma exists_digit (n : Numeral) :
    ∃ c cs, (n.whole ++ n.tail).dropWhile (· == '.') = c :: cs ∧ c.isDigit = true := by
  obtain ⟨sign, whole, fraction, scale, areDigits, nonempty⟩ := n
  have other : ∀ c : Char, c.isDigit = true → ¬(c == '.') = true := by
    intro c digit point
    rw [beq_iff_eq.mp point] at digit
    cases digit
  cases whole with
  | cons c whole =>
    have digit : c.isDigit = true := areDigits c (by simp)
    exact ⟨c, _, List.dropWhile_cons_of_neg (other c digit), digit⟩
  | nil =>
    cases fraction with
    | none => exact absurd rfl nonempty
    | some digits =>
      obtain ⟨c, digits, rfl⟩ := List.exists_cons_of_ne_nil (show digits ≠ [] from nonempty)
      have digit : c.isDigit = true := areDigits c (by simp)
      refine ⟨c, digits ++ (scale.map Scale.chars).getD [], ?_, digit⟩
      simp [tail, other c digit]

lemma unsigned_chars (n : Numeral) : unsigned n.chars = n.whole ++ n.tail := by
  obtain ⟨c, cs, split, lead⟩ := n.exists_lead
  rw [chars, split]
  apply unsigned_signChars
  rintro _ ⟨⟩
  obtain ⟨plus, minus, -⟩ := lead_ne lead
  exact ⟨plus, minus⟩

lemma magnitude?_chars (n : Numeral) :
    magnitude? n.chars =
      some (.decimal (digitsValue (n.whole ++ n.decimals)) (n.exponent - n.decimals.length)) := by
  obtain ⟨c, cs, split, lead⟩ := n.exists_lead
  obtain ⟨-, -, ne_i, ne_n⟩ := lead_ne lead
  simp only [magnitude?, unsigned_chars]
  rw [if_neg, if_neg, decimal?_chars]
  · rw [split]
    simp [ne_n]
  · rw [split]
    simp [ne_i]

/-- A floating point literal is a decimal number or a word. -/
lemma cases_of_magnitude? {cs : List Char} {m : Magnitude} (h : magnitude? cs = some m) :
    (∃ n : Numeral, n.chars = cs) ∨ (m = .infinite ∨ m = .notANumber) ∧
      ∃ c rest, unsigned cs = c :: rest ∧ (c.toLower = 'i' ∨ c.toLower = 'n') := by
  simp only [magnitude?] at h
  split_ifs at h with infinite nan
  · refine .inr ⟨.inl (Option.some.inj h).symm, ?_⟩
    rcases infinite with word | word <;> obtain ⟨c, rest, split, first, -⟩ := List.map_eq_cons_iff.mp word
    · exact ⟨c, rest, split, .inl first⟩
    · exact ⟨c, rest, split, .inl first⟩
  · obtain ⟨c, rest, split, first, -⟩ := List.map_eq_cons_iff.mp nan
    exact .inr ⟨.inr (Option.some.inj h).symm, c, rest, split, .inr first⟩
  · obtain ⟨sign, split, -⟩ := exists_sign cs
    rw [split]
    exact .inl (exists_of_decimal? h sign)

lemma abs_signed (sign : Option Sign) (x : ℚ) : |signed sign x| = |x| := by
  rw [signed]
  split_ifs
  · exact abs_neg x
  · rfl

/-- The size of the number, from its digits in one row. -/
lemma abs_value (n : Numeral) :
    |n.value| = digitsValue (n.whole ++ n.decimals) * 10 ^ (n.exponent - n.decimals.length) := by
  rw [value, abs_signed, abs_of_nonneg (by positivity), digitsValue_append, zpow_sub₀ (by norm_num), zpow_natCast]
  push_cast
  field_simp

end Numeral

end Reading

section Overflow

/-- The nearest whole number, of two the even one. -/
def roundHalfEven (x : ℚ) : ℕ :=
  if x - ⌊x⌋₊ < 1 / 2 then ⌊x⌋₊
  else if 1 / 2 < x - ⌊x⌋₊ then ⌊x⌋₊ + 1
  else if ⌊x⌋₊ % 2 = 0 then ⌊x⌋₊ else ⌊x⌋₊ + 1

/-- The unit in the last place of a positive number in double precision: it leaves 53 binary digits, and fewer only to
numbers close to zero. -/
def lastPlace (x : ℚ) : ℚ := 2 ^ (max (Int.log 2 x) (-1022) - 52)

/-- Whether a positive number is infinite in double precision: rounded, it does not stay below the bound of the
exponents. -/
def RoundsToInfinity (x : ℚ) : Prop := 2 ^ (1024 : ℤ) ≤ roundHalfEven (x / lastPlace x) * lastPlace x

/-- An even number is reached half a unit before it. -/
lemma le_roundHalfEven_iff {k : ℕ} (even : k % 2 = 0) (pos : 0 < k) {x : ℚ} (nonneg : 0 ≤ x) :
    k ≤ roundHalfEven x ↔ (k : ℚ) - 1 / 2 ≤ x := by
  have floor_le : (⌊x⌋₊ : ℚ) ≤ x := Nat.floor_le nonneg
  have lt_succ : x < ⌊x⌋₊ + 1 := Nat.lt_floor_add_one x
  generalize floor : ⌊x⌋₊ = whole at *
  rw [roundHalfEven, floor]
  rcases lt_trichotomy (whole + 1) k with less | rfl | more
  · have : (whole : ℚ) + 1 + 1 ≤ k := by exact_mod_cast less
    constructor
    · intro reached
      split_ifs at reached <;> omega
    · intro reached
      linarith
  · have odd : ¬whole % 2 = 0 := by omega
    push_cast
    rw [if_neg odd]
    split_ifs with near far
    · constructor
      · intro reached
        omega
      · intro reached
        linarith
    · simp only [le_refl, true_iff]
      linarith
    · simp only [le_refl, true_iff]
      linarith
  · have : (k : ℚ) ≤ whole := by exact_mod_cast Nat.lt_succ_iff.mp more
    constructor
    · intro reached
      linarith
    · intro reached
      split_ifs <;> omega

lemma cast_pow_sub_pow {b m n : ℕ} (h : n ≤ m) (bound : b = Nat.pow 2 m - Nat.pow 2 n) :
    (b : ℚ) = 2 ^ (m : ℤ) - 2 ^ (n : ℤ) := by
  have ordered : Nat.pow 2 n ≤ Nat.pow 2 m := Nat.pow_le_pow_right (by decide) h
  rw [bound, Nat.cast_sub ordered, Nat.pow_eq, Nat.pow_eq, Nat.cast_pow, Nat.cast_pow, Nat.cast_ofNat, zpow_natCast,
    zpow_natCast]

lemma cast_overflowBound : (overflowBound : ℚ) = 2 ^ (1024 : ℤ) - 2 ^ (970 : ℤ) := by
  have cast := @cast_pow_sub_pow overflowBound 1024 970 (by decide) (by decide +kernel)
  rwa [Nat.cast_ofNat, Nat.cast_ofNat] at cast

lemma lastPlace_pos (x : ℚ) : 0 < lastPlace x := by
  rw [lastPlace]
  positivity

/-- No number has more than 53 binary digits before its last place. -/
lemma lt_lastPlace_mul (x : ℚ) : x < 2 ^ 53 * lastPlace x := by
  calc x < 2 ^ (Int.log 2 x + 1) := Int.lt_zpow_succ_log_self (by decide) x
    _ ≤ 2 ^ (53 + (max (Int.log 2 x) (-1022) - 52)) := zpow_le_zpow_right₀ (by norm_num) (by omega)
    _ = 2 ^ 53 * lastPlace x := by
      rw [zpow_add₀ (by norm_num), lastPlace]
      norm_num

lemma lastPlace_of_log {x : ℚ} {e : ℤ} (h : Int.log 2 x = e + 52) (normal : -1074 ≤ e) : lastPlace x = 2 ^ e := by
  rw [lastPlace, h, max_eq_left (by omega), add_sub_cancel_right]

/-- The powers of two around the bound, counted in the lowest one. -/
lemma exists_unit : ∃ unit : ℚ, 0 < unit ∧ 2 ^ (970 : ℤ) = unit ∧ 2 ^ (971 : ℤ) = 2 * unit ∧
    2 ^ (972 : ℤ) = 4 * unit ∧ 2 ^ (1023 : ℤ) = 2 ^ 53 * unit ∧ 2 ^ (1024 : ℤ) = 2 ^ 54 * unit := by
  have split : ∀ k : ℕ, (2 : ℚ) ^ (k + 970 : ℤ) = 2 ^ k * 2 ^ (970 : ℤ) := by
    intro k
    rw [zpow_add₀ (by norm_num), zpow_natCast]
  refine ⟨2 ^ (970 : ℤ), by positivity, rfl, (split 1).trans ?_, (split 2).trans ?_, split 53, split 54⟩
  · rw [pow_one]
  · rw [show (4 : ℚ) = 2 ^ 2 by norm_num]

section Bounds
variable {x : ℚ}

/-- Numbers below the last power of two stay finite, also when they are rounded up to it. -/
lemma not_roundsToInfinity (nonneg : 0 ≤ x) (small : x < 2 ^ (1023 : ℤ)) : ¬RoundsToInfinity x := by
  obtain ⟨unit, unit_pos, lowest, -, -, -, last⟩ := exists_unit
  have place : lastPlace x ≤ unit := by
    have bound : Int.log 2 x < 1023 := by
      rcases nonneg.eq_or_lt with rfl | pos
      · simp
      · exact (Int.lt_zpow_iff_log_lt (by decide) pos).mp small
    rw [← lowest]
    exact zpow_le_zpow_right₀ (by norm_num) (by omega)
  have pos := lastPlace_pos x
  have ratio : x / lastPlace x < 2 ^ 53 := (div_lt_iff₀ pos).mpr (lt_lastPlace_mul x)
  have rounded : ¬2 ^ 53 + 2 ≤ roundHalfEven (x / lastPlace x) := by
    rw [le_roundHalfEven_iff (by decide) (by decide) (by positivity)]
    push_cast
    linarith
  have cast : (roundHalfEven (x / lastPlace x) : ℚ) ≤ 2 ^ 53 + 1 := by
    exact_mod_cast Nat.le_of_lt_succ (not_le.mp rounded)
  rw [RoundsToInfinity, not_le, last]
  calc (roundHalfEven (x / lastPlace x) : ℚ) * lastPlace x ≤ (2 ^ 53 + 1) * unit := by gcongr
    _ < 2 ^ 54 * unit := by
      gcongr
      norm_num

/-- Numbers that double precision does not reach are infinite. -/
lemma roundsToInfinity_of_le (large : 2 ^ (1024 : ℤ) ≤ x) : RoundsToInfinity x := by
  have pos : 0 < x := lt_of_lt_of_le (by positivity) large
  have log_le : 1024 ≤ Int.log 2 x := (Int.zpow_le_iff_le_log (by decide) pos).mp large
  have place : lastPlace x = 2 ^ (Int.log 2 x - 52) := lastPlace_of_log (by omega) (by omega)
  have least : 2 ^ 52 * lastPlace x ≤ x := by
    calc (2 : ℚ) ^ 52 * lastPlace x = 2 ^ Int.log 2 x := by
          rw [place, ← zpow_natCast, ← zpow_add₀ (by norm_num)]
          congr 1
          omega
      _ ≤ x := Int.zpow_log_le_self (by decide) pos
  have ratio : (2 : ℚ) ^ 52 ≤ x / lastPlace x := (le_div_iff₀ (lastPlace_pos x)).mpr least
  have rounded : 2 ^ 52 ≤ roundHalfEven (x / lastPlace x) := by
    rw [le_roundHalfEven_iff (by decide) (by decide) (by linarith)]
    push_cast
    linarith
  obtain ⟨unit, unit_pos, -, -, lower, -, last⟩ := exists_unit
  have wide : 4 * unit ≤ lastPlace x := by
    rw [← lower, place]
    exact zpow_le_zpow_right₀ (by norm_num) (by omega)
  have cast : (2 : ℚ) ^ 52 ≤ roundHalfEven (x / lastPlace x) := by exact_mod_cast rounded
  rw [RoundsToInfinity, last]
  calc (2 : ℚ) ^ 54 * unit = 2 ^ 52 * (4 * unit) := by ring
    _ ≤ roundHalfEven (x / lastPlace x) * lastPlace x := by gcongr

/-- Among the last numbers of double precision, half a unit decides. -/
lemma roundsToInfinity_iff_of_last (low : 2 ^ (1023 : ℤ) ≤ x) (high : x < 2 ^ (1024 : ℤ)) :
    RoundsToInfinity x ↔ (2 ^ 53 - 1 / 2) * 2 ^ (971 : ℤ) ≤ x := by
  have pos : 0 < x := lt_of_lt_of_le (by positivity) low
  have log_ge : 1023 ≤ Int.log 2 x := (Int.zpow_le_iff_le_log (by decide) pos).mp low
  have log_lt : Int.log 2 x < 1024 := (Int.lt_zpow_iff_log_lt (by decide) pos).mp high
  have place : lastPlace x = 2 ^ (971 : ℤ) := lastPlace_of_log (by omega) (by decide)
  obtain ⟨unit, unit_pos, -, upper, -, -, last⟩ := exists_unit
  rw [upper] at place ⊢
  have whole : (2 : ℚ) ^ 54 * unit = (2 ^ 53 : ℕ) * (2 * unit) := by
    push_cast
    ring
  have twice_pos : 0 < 2 * unit := by positivity
  have half := @le_roundHalfEven_iff (2 ^ 53) (by decide) (by decide) (x / (2 * unit)) (by positivity)
  rw [RoundsToInfinity, place, last, whole, mul_le_mul_iff_left₀ twice_pos, Nat.cast_le, half, le_div_iff₀ twice_pos]
  push_cast
  rfl

/-- The least number that is infinite in double precision. -/
theorem roundsToInfinity_iff (nonneg : 0 ≤ x) : RoundsToInfinity x ↔ (overflowBound : ℚ) ≤ x := by
  obtain ⟨unit, unit_pos, lowest, upper, -, many, last⟩ := exists_unit
  have bound : (overflowBound : ℚ) = 2 ^ 54 * unit - unit := by rw [cast_overflowBound, last, lowest]
  by_cases small : x < 2 ^ (1023 : ℤ)
  · apply iff_of_false (not_roundsToInfinity nonneg small)
    rw [many] at small
    rw [bound, not_le]
    linarith only [small, unit_pos]
  by_cases large : 2 ^ (1024 : ℤ) ≤ x
  · apply iff_of_true (roundsToInfinity_of_le large)
    rw [last] at large
    rw [bound]
    linarith only [large, unit_pos]
  · rw [roundsToInfinity_iff_of_last (not_lt.mp small) (not_le.mp large), upper, bound]
    constructor
    · intro h
      linarith only [h]
    · intro h
      linarith only [h]

end Bounds

/-- The length of a number in digits says between which powers of ten it lies. -/
lemma length_toDigits_bounds {n : ℕ} (pos : 0 < n) :
    10 ^ ((Nat.toDigits 10 n).length - 1) ≤ n ∧ n < 10 ^ (Nat.toDigits 10 n).length := by
  have length_pos : 0 < (Nat.toDigits 10 n).length := Nat.length_toDigits_pos
  refine ⟨?_, (Nat.length_toDigits_le_iff (by decide) length_pos).mp le_rfl⟩
  by_contra! less
  by_cases single : (Nat.toDigits 10 n).length - 1 = 0
  · rw [single, pow_zero] at less
    omega
  · have := (Nat.length_toDigits_le_iff (by decide) (Nat.pos_of_ne_zero single)).mpr less
    omega

lemma bounds_of_places {digits : ℕ} (pos : 0 < digits) (e : ℤ) :
    (10 : ℚ) ^ ((Nat.toDigits 10 digits).length + e - 1) ≤ digits * 10 ^ e ∧
      (digits : ℚ) * 10 ^ e < 10 ^ ((Nat.toDigits 10 digits).length + e) := by
  obtain ⟨low, high⟩ := length_toDigits_bounds pos
  have length_pos : 0 < (Nat.toDigits 10 digits).length := Nat.length_toDigits_pos
  generalize (Nat.toDigits 10 digits).length = length at *
  have scaled : (0 : ℚ) < 10 ^ e := by positivity
  constructor
  · calc (10 : ℚ) ^ (length + e - 1)
        = 10 ^ ((length - 1 : ℕ) : ℤ) * 10 ^ e := by
          rw [← zpow_add₀ (by norm_num)]
          congr 1
          omega
      _ ≤ digits * 10 ^ e := by
          gcongr
          rw [zpow_natCast]
          exact_mod_cast low
  · rw [zpow_add₀ (by norm_num), zpow_natCast]
    gcongr
    exact_mod_cast high

lemma cast_natPow (n : ℕ) : ((Nat.pow 10 n : ℕ) : ℚ) = 10 ^ (n : ℤ) := by
  rw [zpow_natCast, Nat.pow_eq, Nat.cast_pow, Nat.cast_ofNat]

lemma overflowBound_le {n : ℕ} (h : overflowBound ≤ Nat.pow 10 n) : (overflowBound : ℚ) ≤ 10 ^ (n : ℤ) := by
  rw [← cast_natPow]
  exact Nat.cast_le.mpr h

lemma le_overflowBound {n : ℕ} (h : Nat.pow 10 n ≤ overflowBound) : (10 : ℚ) ^ (n : ℤ) ≤ overflowBound := by
  rw [← cast_natPow]
  exact Nat.cast_le.mpr h

/-- The digits decide rightly whether a number rounds to infinity. -/
theorem overflows_iff (digits : ℕ) (e : ℤ) :
    overflows digits e = true ↔ (overflowBound : ℚ) ≤ digits * 10 ^ e := by
  by_cases zero : digits = 0
  · have bound_pos : (0 : ℚ) < overflowBound := Nat.cast_pos.mpr (by decide +kernel)
    have none_left : overflows digits e = false := by simp only [overflows, if_pos zero]
    rw [none_left, zero, Nat.cast_zero, zero_mul]
    exact iff_of_false Bool.false_ne_true (not_le.mpr bound_pos)
  obtain ⟨least, below⟩ := bounds_of_places (Nat.pos_of_ne_zero zero) e
  simp only [overflows, if_neg zero]
  split_ifs with long short whole
  · simp only [true_iff]
    calc (overflowBound : ℚ) ≤ 10 ^ ((310 : ℕ) : ℤ) := overflowBound_le (by decide +kernel)
      _ ≤ 10 ^ ((Nat.toDigits 10 digits).length + e - 1) := zpow_le_zpow_right₀ (by norm_num) (by omega)
      _ ≤ digits * 10 ^ e := least
  · simp only [false_iff, not_le]
    calc (digits : ℚ) * 10 ^ e < 10 ^ ((Nat.toDigits 10 digits).length + e) := below
      _ ≤ 10 ^ ((308 : ℕ) : ℤ) := zpow_le_zpow_right₀ (by norm_num) (by omega)
      _ ≤ overflowBound := le_overflowBound (by decide +kernel)
  · obtain ⟨k, rfl⟩ := Int.eq_ofNat_of_zero_le whole
    rw [decide_eq_true_iff, Int.toNat_natCast, Nat.pow_eq, zpow_natCast, ← @Nat.cast_le ℚ]
    push_cast
    rfl
  · obtain ⟨k, negative⟩ := Int.eq_ofNat_of_zero_le (show 0 ≤ -e by omega)
    obtain rfl : e = -k := by omega
    rw [decide_eq_true_iff, neg_neg, Int.toNat_natCast, Nat.pow_eq, zpow_neg, zpow_natCast, ← div_eq_mul_inv,
      le_div_iff₀ (by positivity), ← @Nat.cast_le ℚ]
    push_cast
    rfl

end Overflow

end Keyfile.Text
