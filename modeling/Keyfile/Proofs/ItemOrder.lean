import Keyfile.Editor.View
import Keyfile.Proofs.ConditionSides
import Keyfile.Proofs.Consultation
import Keyfile.Proofs.ValueCompletion

/-! The order of completions in an editor that sorts them by their texts. Five digits keep the order of a hundred
thousand completions, and of no more than that. -/
namespace Keyfile
open Adjacency

section Digits
variable {as bs : List Char}

lemma Text.digit_bounds {c : Char} (digit : c.isDigit = true) : 48 ≤ c.toNat ∧ c.toNat ≤ 57 := by
  simpa [Char.isDigit, UInt32.le_iff_toNat_le] using digit

/-- Of two runs of digits with the same length, the one that starts from more stays ahead. -/
lemma Text.ofDigitChars_lt_of_lt (size : as.length = bs.length) (digits : ∀ c ∈ as, c.isDigit = true) {m n : Nat}
    (less : m < n) : Nat.ofDigitChars 10 as m < Nat.ofDigitChars 10 bs n := by
  induction as generalizing bs m n with
  | nil =>
    obtain rfl : bs = [] := List.length_eq_zero_iff.mp size.symm
    exact less
  | cons a as ih =>
    obtain ⟨b, bs, rfl⟩ := List.exists_cons_of_length_eq_add_one size.symm
    obtain ⟨first, later⟩ := List.forall_mem_cons.mp digits
    have bounds := digit_bounds first
    rw [Nat.ofDigitChars_cons, Nat.ofDigitChars_cons]
    refine ih (by simpa using size) later ?_
    change 10 * m + (a.toNat - 48) < 10 * n + (b.toNat - 48)
    omega

/-- Runs of digits with the same length are ordered as the numbers they write. -/
lemma Text.lt_iff_ofDigitChars_lt (size : as.length = bs.length) (digits : ∀ c ∈ as, c.isDigit = true)
    (digits' : ∀ c ∈ bs, c.isDigit = true) (n : Nat) :
    as < bs ↔ Nat.ofDigitChars 10 as n < Nat.ofDigitChars 10 bs n := by
  induction as generalizing bs n with
  | nil =>
    obtain rfl : bs = [] := List.length_eq_zero_iff.mp size.symm
    simp
  | cons a as ih =>
    obtain ⟨b, bs, rfl⟩ := List.exists_cons_of_length_eq_add_one size.symm
    have rest : as.length = bs.length := by simpa using size
    obtain ⟨first, later⟩ := List.forall_mem_cons.mp digits
    obtain ⟨first', later'⟩ := List.forall_mem_cons.mp digits'
    have bounds := digit_bounds first
    have bounds' := digit_bounds first'
    rw [List.cons_lt_cons_iff, Nat.ofDigitChars_cons, Nat.ofDigitChars_cons]
    rcases Nat.lt_trichotomy a.toNat b.toNat with less | same | more
    · exact iff_of_true (.inl less) (ofDigitChars_lt_of_lt rest later (by change _ + (_ - 48) < _ + (_ - 48); omega))
    · obtain rfl := Char.toNat_inj.mp same
      rw [← ih rest later later']
      simp
    · refine iff_of_false ?_ (Nat.lt_asymm (ofDigitChars_lt_of_lt rest.symm later' ?_))
      · rintro (less | ⟨rfl, -⟩)
        · exact Nat.lt_asymm more less
        · exact Nat.lt_irrefl _ more
      · change _ + (_ - 48) < _ + (_ - 48)
        omega

end Digits

/-- Where nothing is typed yet, all integers of a range within the limit are offered. -/
lemma value_of_between {c : Completer} {key : String} {rule : Rule} {low high : Int} (start : Nat)
    (ruled : ruleOf? c.schema key = some rule) (conditioned : rule.condition? = some (.between low high))
    (listed : low ≤ high ∧ high - low ≤ c.settings.rangeLimit) :
    ∃ options : List CompletionOption, options.length = (high - low).toNat + 1 ∧
      c.value start key "" = .settled (some ⟨start, none, options⟩) := by
  obtain ⟨found, resolved, ruled⟩ := Option.bind_eq_some_iff.mp ruled
  have values : rule.suggestions? c.settings.rangeLimit = some ⟨.condition, decimalsBetween low high⟩ := by
    rw [suggestions?_eq_condition_iff conditioned, Condition.values?, if_pos listed,
      map_decimalString_integersFrom listed.1]
  refine ⟨(decimalsBetween low high).map (⟨·, none, .choice⟩), ?_, ?_⟩
  · rw [List.length_map, decimalsBetween, List.length_map, List.length_range]
    omega
  · simp only [Completer.value, resolved, ruled, Option.bind_some, values, accepts_empty, Bool.or_true,
      List.filter_eq_self.mpr, implies_true, Completer.valueOptionKind]

namespace Editor

lemma toList_fiveDigits (n : Nat) :
    (fiveDigits n).toList = List.replicate (5 - (Nat.toDigits 10 n).length) '0' ++ Nat.toDigits 10 n := by
  rw [fiveDigits, String.toList_ofList]

lemma isDigit_of_mem_fiveDigits {n : Nat} {c : Char} (h : c ∈ (fiveDigits n).toList) : c.isDigit = true := by
  rw [toList_fiveDigits, List.mem_append] at h
  rcases h with zero | digit
  · rw [List.eq_of_mem_replicate zero]
    rfl
  · exact Text.isDigit_of_mem_toDigits digit

/-- The zeros in front do not change the number. -/
lemma ofDigitChars_fiveDigits (n : Nat) : Nat.ofDigitChars 10 (fiveDigits n).toList 0 = n := by
  rw [toList_fiveDigits, Nat.ofDigitChars_append, Nat.ofDigitChars_replicate_zero, Nat.mul_zero,
    Nat.ofDigitChars_ten_toDigits]

lemma length_fiveDigits {n : Nat} (small : n < 100000) : (fiveDigits n).toList.length = 5 := by
  have short : (Nat.toDigits 10 n).length ≤ 5 := (Nat.length_toDigits_le_iff (by decide) (by decide)).mpr small
  rw [toList_fiveDigits, List.length_append, List.length_replicate]
  omega

/-- Where five digits are enough, they keep the order of numbers. -/
lemma fiveDigits_lt_iff {m n : Nat} (small : m < 100000) (small' : n < 100000) :
    fiveDigits m < fiveDigits n ↔ m < n := by
  rw [String.lt_iff,
    Text.lt_iff_ofDigitChars_lt ((length_fiveDigits small).trans (length_fiveDigits small').symm)
      (fun _ => isDigit_of_mem_fiveDigits) (fun _ => isDigit_of_mem_fiveDigits) 0,
    ofDigitChars_fiveDigits, ofDigitChars_fiveDigits]

/-- A sixth digit puts a number before smaller ones. -/
lemma fiveDigits_overflow : ¬fiveDigits 99999 < fiveDigits 100000 := by
  decide +kernel

variable (text : List Char) (cursor : Nat) (c : Completion)

lemma sortTexts_items : (items text cursor c).map (·.sortText) = (List.range c.options.length).map fiveDigits := by
  apply List.ext_getElem
  · simp [items]
  · intro i _ _
    simp [items]

lemma not_pairwise_of_long {n : Nat} (long : 100000 < n) :
    ¬((List.range n).map fiveDigits).Pairwise (· < ·) := by
  intro sorted
  rw [List.pairwise_map, List.pairwise_iff_getElem] at sorted
  have last := sorted 99999 100000 (by simp; omega) (by simpa using long) (by decide)
  rw [List.getElem_range, List.getElem_range] at last
  exact fiveDigits_overflow last

/-- Sorted by their texts, the items of a completion stay in their order exactly if there are at most a hundred
thousand of them. -/
theorem items_sorted_iff :
    ((items text cursor c).map (·.sortText)).Pairwise (· < ·) ↔ c.options.length ≤ 100000 := by
  rw [sortTexts_items]
  constructor
  · intro sorted
    by_contra long
    exact not_pairwise_of_long (by omega) sorted
  · intro short
    rw [List.pairwise_map]
    refine List.pairwise_lt_range.imp_of_mem ?_
    intro i j hi hj less
    rw [List.mem_range] at hi hj
    exact (fiveDigits_lt_iff (by omega) (by omega)).mpr less

/-- A completion that is settled is shown whoever could be asked. -/
lemma itemsAt_of_settled {ε : Type} {a : Analyzer} {d : Document} {p : Position} {offset : Nat}
    {completion : Completion} (placed : Text.offsetAt? d.text.toList p.line p.column = some offset)
    (settled : a.plan d offset = .settled (some completion)) (provider : Option (Provider Id ε)) :
    a.itemsAt provider d p = pure (.ok (some (items d.text.toList offset completion))) := by
  simp only [Analyzer.itemsAt, placed, Analyzer.completeAt_eq_run, settled]
  rfl

/-- Settings that let ranges be listed up to a width of a hundred thousand. -/
def wideSettings : Settings := ⟨"configle", none, ⟨100000, true⟩, ⟨true, true, true⟩⟩

/-- A range of a hundred thousand and one integers is listed where settings allow it, and sorted by their texts its
items do not stay in their order. -/
theorem items_unsorted :
    wideSettings.fault? = none ∧
      ∃ shown, (Analyzer.plain (conditionedKey "between:0,100000") wideSettings).itemsAt
          (none : Option (Provider Id Unit)) (scan "k=") ⟨0, 2⟩ = pure (.ok (some shown)) ∧
        ¬(shown.map (·.sortText)).Pairwise (· < ·) := by
  have named : "k".toList.all isNameChar = true := by decide +kernel
  have plan := atOffset_assign (conditionedKey "between:0,100000") wideSettings.completion
    (show "k" ≠ "" by decide) (List.all_eq_true.mp named)
  have text : "k" ++ "=" = "k=" := by decide
  have size : Text.bytes "k=".toList = 2 := by decide
  have conditioned : Rule.condition? ⟨none, none, none, some "between:0,100000"⟩ = some (.between 0 100000) := by
    decide +kernel
  rw [text, size] at plan
  obtain ⟨options, count, value⟩ : ∃ options : List CompletionOption, options.length = 100001 ∧
      Completer.value ⟨conditionedKey "between:0,100000", wideSettings.completion, scan "k="⟩ 2 "k" "" =
        .settled (some ⟨2, none, options⟩) := value_of_between 2 rfl conditioned (by decide)
  have settled : (Analyzer.plain (conditionedKey "between:0,100000") wideSettings).plan (scan "k=") 2 =
      .settled (some ⟨2, none, options⟩) := plan.trans value
  refine ⟨by decide +kernel, _, itemsAt_of_settled rfl settled none, ?_⟩
  rw [sortTexts_items, count]
  exact not_pairwise_of_long (by decide)

end Editor
end Keyfile
