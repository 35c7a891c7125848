import Keyfile.Proofs.ScannedTokens

/-! The words of a document: its nodes by kind and text, without their places. Blanks are no words, and a
report depends on places only in the places that it names. -/
namespace Keyfile
open Adjacency

/-- Kinds and texts of the top-level nodes. -/
def Document.words (d : Document) : List (Kind × String) := d.content.map fun n => (n.kind, d.slice n.span)

/-- A diagnostic without places. -/
def Diagnostic.wording (d : Diagnostic) : Severity × Message := (d.severity, d.message)

def Lexeme.word? (l : Lexeme) : Option (Kind × String) := l.kind?.map fun kind => (kind, String.ofList l.chars)

/-- The words of a text that continues a line in the given state. -/
def wordsFrom (s : LineState) (cs : List Char) : List (Kind × String) := (lexemes s cs).filterMap Lexeme.word?

def Adjacency.Token.word (t : Token) : Kind × String := (t.kind, t.text)

lemma map_word_tokens (offset : Nat) (ls : List Lexeme) :
    (tokens offset ls).map Token.word = ls.filterMap Lexeme.word? := by
  induction ls generalizing offset with
  | nil => rfl
  | cons l ls ih =>
    obtain ⟨kind?, chars⟩ := l
    cases kind? with
    | none => rw [tokens_gap, ih]; rfl
    | some kind => rw [tokens_kind, List.map_cons, ih]; rfl

theorem words_scan (text : String) : (scan text).words = wordsFrom .fresh text.toList := by
  have texts : ∀ t ∈ tokens 0 (lexemes .fresh text.toList),
      (t.node.kind, (scan text).slice t.node.span) = t.word :=
    fun t ht => congrArg (Prod.mk t.kind) (slice_of_mem_tokens ht)
  rw [Document.words, content_scan, List.map_map, wordsFrom, ← map_word_tokens 0]
  exact List.map_congr_left texts

section Reading
variable {s : LineState}

@[simp] theorem wordsFrom_nil (s : LineState) : wordsFrom s [] = [] := by
  simp [wordsFrom, lexemes]

lemma wordsFrom_of_starts {kind : Kind} {chars rest : List Char} (h : Starts s ⟨some kind, chars⟩ rest) :
    wordsFrom s (chars ++ rest) = (kind, String.ofList chars) :: wordsFrom (s.after (some kind)) rest := by
  unfold wordsFrom
  rw [lexemes_of_starts h]
  rfl

lemma starts_gap {c : Char} (gap : isGap c = true) (s : LineState) (rest : List Char) :
    Starts s ⟨none, [c]⟩ rest := by
  have newline : c ≠ '\n' := by
    rintro rfl
    cases gap
  refine ⟨c, rest, rfl, ?_⟩
  rw [role, if_neg newline, if_pos gap]
  rfl

/-- Gaps are read one by one, and change nothing behind them. -/
lemma lexemes_gaps (s : LineState) {gaps : List Char} (h : ∀ c ∈ gaps, isGap c = true) (rest : List Char) :
    lexemes s (gaps ++ rest) = gaps.map (fun c => ⟨none, [c]⟩) ++ lexemes s rest := by
  induction gaps with
  | nil => rfl
  | cons c gaps ih =>
    have first : lexemes s ([c] ++ (gaps ++ rest)) = ⟨none, [c]⟩ :: lexemes s (gaps ++ rest) :=
      lexemes_of_starts (starts_gap (h c (by simp)) s (gaps ++ rest))
    rw [List.cons_append, ← List.singleton_append, first, ih fun x hx => h x (by simp [hx])]
    rfl

lemma filterMap_word?_gaps (gaps : List Char) :
    (gaps.map fun c => (⟨none, [c]⟩ : Lexeme)).filterMap Lexeme.word? = [] := by
  rw [List.filterMap_map, List.filterMap_eq_nil_iff]
  exact fun c _ => rfl

lemma wordsFrom_gaps (s : LineState) {gaps : List Char} (h : ∀ c ∈ gaps, isGap c = true) (rest : List Char) :
    wordsFrom s (gaps ++ rest) = wordsFrom s rest := by
  unfold wordsFrom
  rw [lexemes_gaps s h, List.filterMap_append, filterMap_word?_gaps, List.nil_append]

lemma wordsFrom_append_lineBreak (s : LineState) (cs below : List Char) :
    wordsFrom s (cs ++ '\n' :: below) = wordsFrom s cs ++ (.lineBreak, "\n") :: wordsFrom .fresh below := by
  unfold wordsFrom
  rw [lexemes_append_lineBreak, List.filterMap_append]
  rfl

end Reading

section Blanks

lemma isBlank_of_isGap {c : Char} (h : isGap c = true) : Text.isBlank c = true := by
  simp only [isGap, Bool.or_eq_true, beq_iff_eq] at h
  rcases h with (rfl | rfl) | rfl <;> rfl

lemma isValueChar_of_isGap {c : Char} (h : isGap c = true) : isValueChar c = true := by
  simp only [isGap, Bool.or_eq_true, beq_iff_eq] at h
  rcases h with (rfl | rfl) | rfl <;> rfl

/-- Behind an equals sign, a value starts with any of its characters that is not skipped. -/
lemma role_value {c : Char} (value : isValueChar c = true) (unskipped : isGap c = false) :
    role true c = .value := by
  have newline : c ≠ '\n' := by
    rintro rfl
    cases value
  have mark : isCommentMark c = false := by
    simp only [isValueChar, Bool.and_eq_true, Bool.not_eq_true'] at value
    exact value.2
  simp [role, newline, unskipped, mark]

lemma isNameChar_of_isGap {c : Char} (h : isGap c = true) : isNameChar c = false := by
  by_contra name
  have solid := isBlank_of_isNameChar (c := c) (by simpa using name)
  rw [isBlank_of_isGap h] at solid
  cases solid

/-- Blanks at the end make no difference to a trimmed text. -/
lemma Text.trimEnd_append_of_blank (cs : List Char) {blanks : List Char}
    (h : ∀ c ∈ blanks, isBlank c = true) : trimEnd (cs ++ blanks) = trimEnd cs := by
  rw [trimEnd, trimEnd, List.reverse_append, List.dropWhile_append_of_pos (by simpa using h)]

lemma Text.trimEnd_trimEnd (cs : List Char) : trimEnd (trimEnd cs) = trimEnd cs := by
  have blank := isBlank_of_trimEnd (trimEnd_append_blanks cs).symm
  rw [← trimEnd_append_of_blank (trimEnd cs) blank, trimEnd_append_blanks]

lemma Text.trimEnd_of_solid {cs : List Char} (h : ∀ c ∈ cs.getLast?, isBlank c = false) : trimEnd cs = cs := by
  rcases List.eq_nil_or_concat cs with rfl | ⟨cs, c, rfl⟩
  · rfl
  · rw [List.concat_eq_append] at h ⊢
    rw [trimEnd, List.reverse_append, List.reverse_singleton, List.singleton_append, List.dropWhile_cons,
      h c (by simp)]
    simp

end Blanks

section Reports

/-- A token away from its place. -/
def wordToken (w : Kind × String) : Token := ⟨w.1, ⟨0, 0⟩, w.2⟩

lemma map_relocate_zero (ts : List Token) :
    ts.map (·.relocate fun _ => 0) = (ts.map Token.word).map wordToken := by
  rw [List.map_map]
  rfl

/-- Without places, the report of a text is that of its words. -/
lemma wording_diagnose (schema : Schema) (text : String) :
    (diagnose schema (scan text)).map Diagnostic.wording =
      (lint schema 0 none none ((scan text).words.map wordToken)).map Diagnostic.wording := by
  have unplaced := lint_relocate schema (Text.bytes text.toList) none none (fun _ => 0)
    (tokens 0 (lexemes .fresh text.toList))
  rw [Option.map_none, map_relocate_zero, map_word_tokens, ← diagnose_scan] at unplaced
  rw [words_scan, wordsFrom, unplaced, List.map_map]
  rfl

end Reports

end Keyfile
