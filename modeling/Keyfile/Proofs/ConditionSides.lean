import Keyfile.Proofs.ValueCompletion
import Mathlib.Data.List.Nodup

/-! The two sides of a condition: the values that it lists and the values that it lets pass. A range is listed with
words of 64 bits; no step of that leaves them, whatever the bounds and the limit are. -/
namespace Keyfile

section Words

/-- The difference of two words, unless it overflows. -/
def checkedSub (a b : Int64) : Option Int64 :=
  if a.toBitVec.ssubOverflow b.toBitVec then none else some (a - b)

lemma checkedSub_eq_some_iff {a b width : Int64} :
    checkedSub a b = some width ↔ width.toInt = a.toInt - b.toInt := by
  have low := width.le_toInt
  have high := width.toInt_lt
  rw [checkedSub]
  split_ifs with overflow
  · have outside : ¬(-0x8000000000000000 ≤ a.toInt - b.toInt ∧ a.toInt - b.toInt < 0x8000000000000000) := by
      simp only [BitVec.ssubOverflow, Int64.toInt_toBitVec, Bool.or_eq_true, decide_eq_true_eq] at overflow
      omega
    refine iff_of_false nofun fun difference => outside ?_
    omega
  · have difference : (a - b).toInt = a.toInt - b.toInt := BitVec.toInt_sub_of_not_ssubOverflow overflow
    rw [Option.some.injEq, ← Int64.toInt_inj, difference, eq_comm]

lemma toInt_succ {n high : Int64} (less : n < high) : (n + 1).toInt = n.toInt + 1 := by
  have one : (1 : Int64).toInt = 1 := rfl
  have low := n.le_toInt
  have top := high.toInt_lt
  rw [Int64.lt_iff_toInt_lt] at less
  rw [Int64.toInt_add, one, Int.bmod_eq_of_le (by omega) (by omega)]

/-- The words from one to another, both included. Nothing is added to the last one. -/
def wordsUpTo (n high : Int64) : List Int64 :=
  if n < high then n :: wordsUpTo (n + 1) high
  else if n = high then [n] else []
termination_by (high.toInt - n.toInt).toNat
decreasing_by
  rename_i less
  rw [toInt_succ less]
  rw [Int64.lt_iff_toInt_lt] at less
  omega

lemma map_toInt_wordsUpTo (n high : Int64) :
    (wordsUpTo n high).map Int64.toInt = integersFrom n.toInt (high.toInt - n.toInt + 1).toNat := by
  fun_induction wordsUpTo n high with
  | case1 n less ih =>
    rw [toInt_succ less] at ih
    rw [Int64.lt_iff_toInt_lt] at less
    have count : (high.toInt - n.toInt + 1).toNat = (high.toInt - (n.toInt + 1) + 1).toNat + 1 := by omega
    rw [List.map_cons, ih, count, integersFrom]
  | case2 => simp [integersFrom]
  | case3 n notLess other =>
    rw [Int64.lt_iff_toInt_lt] at notLess
    rw [← Int64.toInt_inj] at other
    have none : (high.toInt - n.toInt + 1).toNat = 0 := by omega
    rw [none]
    rfl

/-- The values of a range, with words for all numbers. -/
def wordValues? (low high limit : Int64) : Option (List String) :=
  match checkedSub high low with
  | none => none
  | some width =>
    if 0 ≤ width ∧ width ≤ limit then some ((wordsUpTo low high).map fun n => decimalString n.toInt) else none

/-- With words, a range is listed as with numbers of any size. -/
lemma wordValues?_eq (low high limit : Int64) :
    wordValues? low high limit = (Condition.between low.toInt high.toInt).values? limit.toInt := by
  have values : (wordsUpTo low high).map (fun n => decimalString n.toInt) =
      (integersFrom low.toInt (high.toInt - low.toInt + 1).toNat).map decimalString := by
    rw [← map_toInt_wordsUpTo, List.map_map]
    rfl
  have top := limit.toInt_lt
  rw [wordValues?, Condition.values?, values]
  cases sub : checkedSub high low with
  | none =>
    -- a width that is no word is over every limit, or the bounds are not in order
    have wide : ¬(low.toInt ≤ high.toInt ∧ high.toInt - low.toInt ≤ limit.toInt) := by
      rintro ⟨ordered, short⟩
      have width : (Int64.ofInt (high.toInt - low.toInt)).toInt = high.toInt - low.toInt :=
        Int64.toInt_ofInt_of_le (by omega) (by omega)
      rw [checkedSub_eq_some_iff.mpr width] at sub
      cases sub
    rw [if_neg wide]
  | some width =>
    have width_eq := checkedSub_eq_some_iff.mp sub
    have zero : (0 : Int64).toInt = 0 := rfl
    simp only [Int64.le_iff_toInt_le, zero, width_eq, Int.sub_nonneg]
    split_ifs with listed
    · have count : (high.toInt - low.toInt + 1).toNat = (high.toInt - low.toInt).toNat + 1 := by omega
      rw [count]
    · rfl

end Words

section Decimals

/-- The bounds of a range are words. -/
lemma exists_words_of_between {raw : String} {low high : Int} (h : Condition.read raw = .between low high) :
    ∃ lo hi : Int64, lo.toInt = low ∧ hi.toInt = high := by
  have word : ∀ n : Int, Text.minInt64 ≤ n → n ≤ Text.maxInt64 → ∃ w : Int64, w.toInt = n := by
    intro n least most
    refine ⟨Int64.ofInt n, Int64.toInt_ofInt_of_le ?_ ?_⟩
    · simpa [Text.minInt64] using least
    · rw [Text.maxInt64] at most
      omega
  have listed : ∀ items, Condition.ofBounds items = .between low high →
      ∀ n ∈ [low, high], Text.minInt64 ≤ n ∧ n ≤ Text.maxInt64 := by
    intro items bounds n member
    rw [Condition.ofBounds] at bounds
    split at bounds
    next two =>
      obtain ⟨rfl, rfl⟩ := Condition.between.inj bounds
      rw [← two] at member
      obtain ⟨item, -, read⟩ := List.mem_filterMap.mp member
      exact Text.int64?_fits read
    next => cases bounds
  rw [Condition.read] at h
  split at h
  · cases h
  · split at h
    · have fits := listed _ h
      obtain ⟨lo, rfl⟩ := word low (fits low (by simp)).1 (fits low (by simp)).2
      obtain ⟨hi, rfl⟩ := word high (fits high (by simp)).1 (fits high (by simp)).2
      exact ⟨lo, hi, rfl, rfl⟩
    · cases h

/-- The integers from one to another in decimals, in their order. -/
def decimalsBetween (low high : Int) : List String :=
  (List.range (high - low + 1).toNat).map fun i : Nat => decimalString (low + i)

lemma integersFrom_eq_map (low : Int) (count : Nat) :
    integersFrom low count = (List.range count).map fun i : Nat => low + i := by
  induction count generalizing low with
  | zero => rfl
  | succ count ih =>
    rw [integersFrom, ih, List.range_succ_eq_map, List.map_cons, List.map_map]
    refine congrArg₂ List.cons (by simp) (List.map_congr_left fun i _ => ?_)
    simp only [Function.comp_apply]
    omega

lemma map_decimalString_integersFrom {low high : Int} (ordered : low ≤ high) :
    (integersFrom low ((high - low).toNat + 1)).map decimalString = decimalsBetween low high := by
  have count : (high - low + 1).toNat = (high - low).toNat + 1 := by omega
  rw [decimalsBetween, integersFrom_eq_map, List.map_map, count]
  rfl

variable {low high : Int64}

lemma nodup_decimalsBetween : (decimalsBetween low.toInt high.toInt).Nodup := by
  have least := low.le_toInt
  have most := high.toInt_lt
  refine List.Nodup.map_on ?_ List.nodup_range
  intro i hi j _ same
  rw [List.mem_range] at hi
  have := decimalString_inj (by rw [Text.minInt64, Text.maxInt64]; omega) same
  omega

lemma decimalString_mem_decimalsBetween {n : Int} (fits : Text.minInt64 ≤ n ∧ n ≤ Text.maxInt64) :
    decimalString n ∈ decimalsBetween low.toInt high.toInt ↔ low.toInt ≤ n ∧ n ≤ high.toInt := by
  simp only [decimalsBetween, List.mem_map, List.mem_range]
  constructor
  · rintro ⟨i, hi, same⟩
    have := decimalString_inj fits same.symm
    omega
  · rintro ⟨least, most⟩
    exact ⟨(n - low.toInt).toNat, by omega, congrArg decimalString (by omega)⟩

end Decimals

section Sides
variable {r : Rule}

lemma suggestions?_eq_condition_iff {condition : Condition} (conditioned : r.condition? = some condition)
    {limit : Int} {values : List String} :
    r.suggestions? limit = some ⟨.condition, values⟩ ↔ condition.values? limit = some values := by
  rw [Rule.suggestions?, conditioned, Option.bind_some]
  cases condition.values? limit with
  | some listed => simp
  | none =>
    simp only [reduceCtorEq, iff_false]
    split_ifs
    · simp
    · simp

/-- A value that is a word keeps to a range exactly if its decimals are listed for the range. -/
lemma inRange_iff {low high : Int64} (conditioned : r.condition? = some (.between low.toInt high.toInt))
    (unset : r.defaultValue = none) {value : String} {n : Int} (read : Text.int64? value.toList = some n)
    (key span : Span) :
    (∀ d ∈ r.check value key span, ∀ a b, d.message ≠ .outOfRange a b) ↔
      decimalString n ∈ decimalsBetween low.toInt high.toInt := by
  have complaint : ∀ a b, (∃ d ∈ r.check value key span, d.message = .outOfRange a b) ↔
      (n < low.toInt ∨ high.toInt < n) ∧ low.toInt = a ∧ high.toInt = b := by
    intro a b
    rw [check_message_iff r value key span rfl, unset, conditioned, Option.bind_some]
    simp only [Condition.violation?, read]
    split_ifs with outside <;> simp [outside]
  rw [decimalString_mem_decimalsBetween (Text.int64?_fits read)]
  constructor
  · intro quiet
    by_contra outside
    obtain ⟨d, said, message⟩ := (complaint low.toInt high.toInt).mpr ⟨by omega, rfl, rfl⟩
    exact quiet d said _ _ message
  · rintro ⟨least, most⟩ d said a b message
    have := ((complaint a b).mp ⟨d, said, message⟩).1
    omega

lemma isChoice_iff {items : List String} (conditioned : r.condition? = some (.oneOf items))
    (unset : r.defaultValue = none) (value : String) (key span : Span) :
    (∀ d ∈ r.check value key span, d.message ≠ .invalidChoice) ↔ value ∈ items := by
  have complaint : (∃ d ∈ r.check value key span, d.message = .invalidChoice) ↔ value ∉ items := by
    rw [check_message_iff r value key span rfl, unset, conditioned, Option.bind_some]
    simp [Condition.violation?]
  rw [← not_iff_not, ← complaint]
  simp

lemma Text.eq_append_of_after? {lead cs rest : List Char} (h : after? lead cs = some rest) : cs = lead ++ rest := by
  induction lead generalizing cs with
  | nil => exact Option.some.inj h
  | cons l lead ih =>
    cases cs with
    | nil => cases h
    | cons c cs =>
      rw [after?] at h
      split_ifs at h with same
      rw [same, List.cons_append, ih h]

/-- Choices are what stands between the commas of a list. -/
lemma exists_list_of_oneOf {raw : String} {items : List String} (h : Condition.read raw = .oneOf items) :
    ∃ list, raw = "in:" ++ list ∧ items = splitString ',' list := by
  rw [Condition.read] at h
  split at h
  next rest found =>
    refine ⟨String.ofList rest, ?_, ?_⟩
    · apply String.toList_inj.mp
      rw [Text.eq_append_of_after? found]
      simp
    · rw [splitString, String.toList_ofList]
      exact (Condition.oneOf.inj h).symm
  next =>
    split at h
    · rw [Condition.ofBounds] at h
      split at h <;> cases h
    · cases h

/-- What a condition lists is what it lets pass. A range is listed if its bounds are in order and not further apart
than the limit, and a written integer keeps to it exactly if its decimals are among those listed; choices are listed
always, and a value keeps to them exactly if it is one of them. -/
theorem condition_sides_agree (r : Rule) (limit : Int64) :
    (∀ low high, r.condition? = some (.between low high) →
      ((∃ values, r.suggestions? limit.toInt = some ⟨.condition, values⟩) ↔
        low ≤ high ∧ high - low ≤ limit.toInt) ∧
      (∀ values, r.suggestions? limit.toInt = some ⟨.condition, values⟩ →
        values = decimalsBetween low high ∧ values.Nodup) ∧
      (r.defaultValue = none → ∀ value n, Text.int64? value.toList = some n → ∀ key span,
        ((∀ d ∈ r.check value key span, ∀ a b, d.message ≠ .outOfRange a b) ↔
          decimalString n ∈ decimalsBetween low high)) ∧
      ∃ lo hi : Int64, lo.toInt = low ∧ hi.toInt = high ∧
        wordValues? lo hi limit = (Condition.between low high).values? limit.toInt) ∧
    ∀ items, r.condition? = some (.oneOf items) →
      r.suggestions? limit.toInt = some ⟨.condition, items⟩ ∧
      (∃ list, r.conditionText = some ("in:" ++ list) ∧ items = splitString ',' list) ∧
      (r.defaultValue = none → ∀ value key span,
        ((∀ d ∈ r.check value key span, d.message ≠ .invalidChoice) ↔ value ∈ items)) := by
  constructor
  · intro low high conditioned
    obtain ⟨raw, -, between⟩ := Option.map_eq_some_iff.mp conditioned
    obtain ⟨lo, hi, rfl, rfl⟩ := exists_words_of_between between
    have listed : ∀ values, r.suggestions? limit.toInt = some ⟨.condition, values⟩ ↔
        (lo.toInt ≤ hi.toInt ∧ hi.toInt - lo.toInt ≤ limit.toInt) ∧
          values = decimalsBetween lo.toInt hi.toInt := by
      intro values
      rw [suggestions?_eq_condition_iff conditioned, Condition.values?]
      split_ifs with range
      · rw [map_decimalString_integersFrom range.1, Option.some.injEq, eq_comm]
        exact (and_iff_right range).symm
      · exact iff_of_false not_false fun both => range both.1
    refine ⟨?_, ?_, ?_, lo, hi, rfl, rfl, wordValues?_eq lo hi limit⟩
    · simp only [listed, exists_and_left, exists_eq, and_true]
    · intro values offered
      obtain ⟨-, rfl⟩ := (listed values).mp offered
      exact ⟨rfl, nodup_decimalsBetween⟩
    · intro unset value n read key span
      exact inRange_iff conditioned unset read key span
  · intro items conditioned
    obtain ⟨raw, text, oneOf⟩ := Option.map_eq_some_iff.mp conditioned
    obtain ⟨list, rfl, split⟩ := exists_list_of_oneOf oneOf
    refine ⟨(suggestions?_eq_condition_iff conditioned).mpr rfl, ⟨list, text, split⟩, ?_⟩
    intro unset value key span
    exact isChoice_iff conditioned unset value key span

/-- A range that ends with the largest word, and an integer in it written with a sign and zeros. -/
theorem condition_sides_agree_largest :
    let r : Rule := ⟨none, none, none, some "between:9223372036854775806,9223372036854775807"⟩
    (∃ values, r.suggestions? 1 = some ⟨.condition, values⟩) ∧
      ∀ d ∈ r.check "+009223372036854775806" ⟨0, 1⟩ ⟨2, 24⟩, ∀ a b, d.message ≠ .outOfRange a b := by
  intro r
  have conditioned : r.condition? = some (.between 9223372036854775806 9223372036854775807) := by decide +kernel
  obtain ⟨listed, -, passes, -⟩ := (condition_sides_agree r 1).1 _ _ conditioned
  exact ⟨listed.mpr (by decide), (passes rfl _ 9223372036854775806 (by decide +kernel) _ _).mpr (by decide +kernel)⟩

end Sides
end Keyfile
