import Keyfile.Document.Seek
import Keyfile.Proofs.Boundaries
import Keyfile.Proofs.ScannedTokens

/-! A scan loses nothing of its text. The nodes stand one behind the other, only blanks lie between them,
and each line break of the text is a node of its own. -/
namespace Keyfile
open Adjacency

section Lexemes

lemma exists_starts_of_mem {s : LineState} {cs : List Char} {l : Lexeme} (h : l ∈ lexemes s cs) :
    ∃ s' rest, Starts s' l rest := by
  obtain ⟨ls, ms, split⟩ := List.append_of_mem h
  obtain ⟨rest, -, starts, -⟩ := lexemes_eq_cons (lexemes_eq_append split).2
  exact ⟨s.afterAll ls, rest, starts⟩

lemma isGap_of_role {afterAssign : Bool} {c : Char} (h : role afterAssign c = .gap) : isGap c = true := by
  unfold role at h
  split_ifs at h with _ gap
  exact gap

/-- Only blanks are skipped, character by character. -/
lemma eq_gap_of_skipped {s : LineState} {cs : List Char} {l : Lexeme} (h : l ∈ lexemes s cs)
    (skip : l.kind? = none) : ∃ c, l = ⟨none, [c]⟩ ∧ isGap c = true := by
  obtain ⟨s', rest, starts⟩ := exists_starts_of_mem h
  obtain ⟨c, cs, -, hr, first⟩ := starts.inversion
  rw [skip] at hr first
  exact ⟨c, first.symm, isGap_of_role hr⟩

lemma isGap_of_skipped {s : LineState} {cs : List Char} {l : Lexeme} (h : l ∈ lexemes s cs)
    (skip : l.kind? = none) : ∀ c ∈ l.chars, isGap c = true := by
  obtain ⟨c, rfl, gap⟩ := eq_gap_of_skipped h skip
  intro x hx
  rwa [List.mem_singleton.mp hx]

lemma lineBreak_notMem_lexeme (r : Role) (inContainer : Bool) {c : Char} (inner : c ≠ '\n') (cs : List Char) :
    '\n' ∉ (r.lexeme inContainer c cs).chars := by
  intro member
  by_cases below : '\n' ∈ cs
  · -- the lexeme is the same without all that follows the first line break
    obtain ⟨line, rest, rfl, none⟩ := List.eq_append_cons_of_mem below
    rw [lexeme_append_lineBreak] at member
    have := (lexeme_isPrefix r inContainer c line).subset member
    simp [none, inner.symm] at this
  · have := (lexeme_isPrefix r inContainer c cs).subset member
    simp [below, inner.symm] at this

lemma lineBreak_notMem_chars {s : LineState} {cs : List Char} {l : Lexeme} (h : l ∈ lexemes s cs)
    (kind : l.kind? ≠ some .lineBreak) : '\n' ∉ l.chars := by
  obtain ⟨s', rest, c, cs, -, rfl⟩ := exists_starts_of_mem h
  apply lineBreak_notMem_lexeme
  rintro rfl
  exact kind rfl

lemma chars_lineBreak {s : LineState} {cs : List Char} {l : Lexeme} (h : l ∈ lexemes s cs)
    (kind : l.kind? = some .lineBreak) : l.chars = ['\n'] := by
  obtain ⟨s', rest, starts⟩ := exists_starts_of_mem h
  rw [starts.of_lineBreak kind]
  rfl

end Lexemes

section Tokens
variable {ls : List Lexeme}

lemma tokens_pairwise (offset : Nat) (ls : List Lexeme) :
    (tokens offset ls).Pairwise fun t u => t.span.stop ≤ u.span.start := by
  induction ls generalizing offset with
  | nil => exact .nil
  | cons l ls ih =>
    obtain ⟨kind?, chars⟩ := l
    cases kind? with
    | none => exact ih _
    | some kind => exact .cons (fun u hu => (tokens_bounds hu).1) (ih _)

/-- A byte of the text lies in a token or in a character that is skipped. -/
lemma covered_or_skipped (offset : Nat) {front back : List Char} {c : Char} {byte : Nat}
    (text : charsOf ls = front ++ c :: back) (low : offset + Text.bytes front ≤ byte)
    (high : byte < offset + Text.bytes front + c.utf8Size) :
    (∃ t ∈ tokens offset ls, t.span.covers byte .after = true) ∨
      ∃ l ∈ ls, l.kind? = none ∧ c ∈ l.chars := by
  induction ls generalizing offset front with
  | nil => simp at text
  | cons l ls ih =>
    obtain ⟨kind?, chars⟩ := l
    have text : chars ++ charsOf ls = front ++ c :: back := text
    rcases append_eq_append_cons text with ⟨middle, rfl, later⟩ | ⟨middle, now, -⟩
    · rw [Text.bytes_append] at low high
      have low' : offset + Text.bytes chars + Text.bytes middle ≤ byte := by omega
      rcases ih (offset + Text.bytes chars) later low' (by omega) with ⟨t, ht, covers⟩ | ⟨l, hl, skip, member⟩
      · refine .inl ⟨t, ?_, covers⟩
        cases kind? with
        | none => exact ht
        | some kind => exact List.mem_cons_of_mem _ ht
      · exact .inr ⟨l, List.mem_cons_of_mem _ hl, skip, member⟩
    · cases kind? with
      | none => exact .inr ⟨_, List.mem_cons_self, rfl, by simp [now]⟩
      | some kind =>
        refine .inl ⟨_, List.mem_cons_self, ?_⟩
        simp only [Span.covers, now, Text.bytes_append, Text.bytes_cons, Bool.and_eq_true, decide_eq_true_eq]
        omega

lemma span_lineBreaks (offset : Nat) (breaks : ∀ l ∈ ls, l.kind? = some .lineBreak → l.chars = ['\n'])
    (others : ∀ l ∈ ls, l.kind? ≠ some .lineBreak → '\n' ∉ l.chars) :
    ((tokens offset ls).filter (·.kind = .lineBreak)).map (·.span) =
      (Text.offsetsOf '\n' offset (charsOf ls)).map fun q => ⟨q, q + 1⟩ := by
  induction ls generalizing offset with
  | nil => rfl
  | cons l ls ih =>
    have later := ih (offset + Text.bytes l.chars) (fun k hk => breaks k (by simp [hk]))
      (fun k hk => others k (by simp [hk]))
    rw [charsOf_cons, Text.offsetsOf_append, List.map_append, ← later]
    by_cases kind : l.kind? = some .lineBreak
    · have newline := breaks l (by simp) kind
      obtain ⟨kind?, chars⟩ := l
      simp only at kind newline
      subst kind newline
      rfl
    · rw [Text.offsetsOf_of_notMem (others l (by simp) kind)]
      obtain ⟨kind?, chars⟩ := l
      cases kind? with
      | none => rfl
      | some k =>
        have other : k ≠ .lineBreak := by
          rintro rfl
          exact kind rfl
        rw [tokens_kind, List.filter_cons_of_neg (by simpa using other)]
        rfl

/-- A token is the part of the text that its place names. -/
lemma parts_of_mem_tokens {t : Token} (h : t ∈ tokens 0 ls) :
    ∃ front chars back, charsOf ls = front ++ (chars ++ back) ∧ (⟨some t.kind, chars⟩ : Lexeme) ∈ ls ∧
      t.span = ⟨Text.bytes front, Text.bytes front + Text.bytes chars⟩ := by
  obtain ⟨ts, us, split⟩ := List.append_of_mem h
  obtain ⟨before, chars, after, rfl, -, place, -⟩ := tokens_eq_append_cons split
  refine ⟨charsOf before, chars, charsOf after, by simp, by simp, ?_⟩
  rw [place, Nat.zero_add]

end Tokens

/-- How the nodes of a text cover it. -/
structure Lossless (text : List Char) (nodes : List Node) : Prop where
  within : ∀ n ∈ nodes, n.span.Within text
  ordered : nodes.Pairwise fun m n => m.span.stop ≤ n.span.start
  /-- A byte in no node belongs to a blank. -/
  covered : ∀ front c back, text = front ++ c :: back →
    ∀ byte, Text.bytes front ≤ byte → byte < Text.bytes front + c.utf8Size →
      (∀ n ∈ nodes, n.span.covers byte .after = false) → c = ' ' ∨ c = '\t' ∨ c = '\r'
  /-- The line breaks of the text are the nodes of this kind, each of one byte. -/
  breaks : (nodes.filter (·.kind = .lineBreak)).map (·.span) =
    (Text.offsetsOf '\n' 0 text).map fun q => ⟨q, q + 1⟩
  /-- Other nodes stay on their line. -/
  lines : ∀ n ∈ nodes, n.kind ≠ .lineBreak → ∃ chars, n.span.slice? text = some chars ∧ '\n' ∉ chars

/-- Nothing of a text is lost when it is scanned. -/
theorem scan_lossless (text : String) : Lossless text.toList (scan text).content := by
  have whole : charsOf (lexemes .fresh text.toList) = text.toList := charsOf_lexemes _ _
  rw [content_scan]
  refine ⟨?_, ?_, ?_, ?_, ?_⟩
  · intro n hn
    obtain ⟨t, ht, rfl⟩ := List.mem_map.mp hn
    obtain ⟨front, chars, back, split, -, place⟩ := parts_of_mem_tokens ht
    exact Span.within_iff.mpr ⟨front, chars, back, whole ▸ split, place⟩
  · exact List.pairwise_map.mpr (tokens_pairwise 0 _)
  · intro front c back split byte low high uncovered
    rw [← Nat.zero_add (Text.bytes front)] at low high
    rcases covered_or_skipped 0 (whole.trans split) low high with ⟨t, ht, covers⟩ | ⟨l, hl, skip, member⟩
    · have := uncovered t.node (List.mem_map_of_mem ht)
      rw [Token.node, covers] at this
      cases this
    · simpa [isGap, or_assoc] using isGap_of_skipped hl skip c member
  · have spans := span_lineBreaks 0 (fun l (hl : l ∈ lexemes .fresh text.toList) => chars_lineBreak hl)
      (fun l hl => lineBreak_notMem_chars hl)
    rw [whole] at spans
    rw [← spans, List.filter_map, List.map_map]
    rfl
  · intro n hn kind
    obtain ⟨t, ht, rfl⟩ := List.mem_map.mp hn
    obtain ⟨front, chars, back, split, member, place⟩ := parts_of_mem_tokens ht
    refine ⟨chars, ?_, lineBreak_notMem_chars member (by simpa [Token.node] using kind)⟩
    rw [← whole, split, Token.node, place, Span.slice?, Span.parts?_append]
    rfl

end Keyfile
