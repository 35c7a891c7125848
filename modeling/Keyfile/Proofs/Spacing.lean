import Keyfile.Proofs.Boundaries
import Keyfile.Proofs.Words

/-! Texts with more blanks between their lexemes. Wherever a node starts or ends, blanks can be put in without
a change to the words of the text or of its report; only a comment and a quoted value would take them in. -/
namespace Keyfile
open Adjacency

section Insertion
variable {xs between rest gaps : List Char}

/-- Blanks put in behind a value are cut off its end. -/
lemma trimEnd_insert_gaps (h : xs = Text.trimEnd ((xs ++ rest).takeWhile isValueChar) ++ between)
    (skipped : ∀ c ∈ gaps, isGap c = true) :
    Text.trimEnd ((xs ++ (gaps ++ rest)).takeWhile isValueChar) =
      Text.trimEnd ((xs ++ rest).takeWhile isValueChar) := by
  by_cases stop : ∃ x ∈ xs, isValueChar x = false
  · rw [takeWhile_append_of_stop stop, takeWhile_append_of_stop stop]
  · have all : ∀ x ∈ xs, isValueChar x = true := by
      intro x hx
      by_contra stops
      exact stop ⟨x, hx, by simpa using stops⟩
    have raw : (xs ++ rest).takeWhile isValueChar = xs ++ rest.takeWhile isValueChar :=
      List.takeWhile_append_of_pos all
    have raw' : (xs ++ (gaps ++ rest)).takeWhile isValueChar = xs ++ (gaps ++ rest.takeWhile isValueChar) := by
      rw [List.takeWhile_append_of_pos all,
        List.takeWhile_append_of_pos fun c hc => isValueChar_of_isGap (skipped c hc)]
    rw [raw] at h ⊢
    generalize value : Text.trimEnd (xs ++ rest.takeWhile isValueChar) = v at h ⊢
    -- all behind the value is blank, and so are the gaps among it
    have parted : xs ++ rest.takeWhile isValueChar =
        Text.trimEnd (xs ++ rest.takeWhile isValueChar) ++ (between ++ rest.takeWhile isValueChar) := by
      rw [value, ← List.append_assoc, ← h]
    have blank := isBlank_of_trimEnd parted
    have blank' : ∀ x ∈ between ++ (gaps ++ rest.takeWhile isValueChar), Text.isBlank x = true := by
      intro x hx
      simp only [List.mem_append] at hx blank
      rcases hx with hx | hx | hx
      · exact blank x (.inl hx)
      · exact isBlank_of_isGap (skipped x hx)
      · exact blank x (.inr hx)
    rw [raw', h, List.append_assoc, Text.trimEnd_append_of_blank _ blank', ← value, Text.trimEnd_trimEnd]

lemma takeWhile_name_insert_gaps (h : xs = (xs ++ rest).takeWhile isNameChar ++ between)
    (skipped : ∀ c ∈ gaps, isGap c = true) :
    (xs ++ (gaps ++ rest)).takeWhile isNameChar = (xs ++ rest).takeWhile isNameChar := by
  by_cases left : between = []
  · rw [left, List.append_nil] at h
    have all : ∀ x ∈ xs, isNameChar x = true := by
      intro x hx
      rw [h] at hx
      exact List.mem_takeWhile_imp hx
    cases gaps with
    | nil => rfl
    | cons g gaps =>
      rw [List.takeWhile_append_of_pos all, ← h, List.cons_append, List.takeWhile_cons,
        isNameChar_of_isGap (skipped g (by simp))]
      simp
  · exact takeWhile_append_of_left h left _

/-- A lexeme does not see blanks that are put in behind it, unless it takes them in. -/
lemma lexeme_insert_gaps {r : Role} {inContainer : Bool} {c : Char} {cs : List Char}
    (h : c :: cs = (r.lexeme inContainer c (cs ++ rest)).chars ++ between)
    (skipped : ∀ c ∈ gaps, isGap c = true)
    (ended : between = [] → r ≠ .comment ∧ (r = .value → c ≠ '"')) :
    r.lexeme inContainer c (cs ++ (gaps ++ rest)) = r.lexeme inContainer c (cs ++ rest) := by
  cases r with
  | comment =>
    simp only [Role.lexeme] at h ⊢
    have left : between ≠ [] := fun empty => (ended empty).1 rfl
    rw [← List.cons_append, ← List.cons_append, takeWhile_append_of_left h left]
  | value =>
    simp only [Role.lexeme] at h ⊢
    by_cases quote : c = '"'
    · subst quote
      have left : between ≠ [] := fun empty => (ended empty).2 rfl rfl
      simp only [valueLexeme, List.cons_append] at h ⊢
      rw [quotedTail_append_of_left (List.cons.inj h).2 left]
    · rw [valueLexeme_unquoted quote] at h ⊢
      rw [valueLexeme_unquoted quote, ← List.cons_append, ← List.cons_append, trimEnd_insert_gaps h skipped]
  | name =>
    simp only [Role.lexeme] at h ⊢
    rw [← List.cons_append, ← List.cons_append, takeWhile_name_insert_gaps h skipped]
  | _ => rfl

end Insertion

/-- Whether a lexeme goes on through blanks that follow it: a comment does, and a value may if it is quoted. -/
def Lexeme.isOpen (l : Lexeme) : Bool :=
  l.kind? == some .comment || (l.kind? == some .string && l.chars.head? == some '"')

lemma Starts.insert_gaps {s : LineState} {l : Lexeme} {between rest gaps : List Char}
    (h : Starts s l (between ++ rest)) (skipped : ∀ c ∈ gaps, isGap c = true)
    (nonempty : l.chars ++ between ≠ []) (ended : between = [] → l.isOpen = false) :
    Starts s l (between ++ (gaps ++ rest)) := by
  refine h.replace nonempty ?_
  intro r c cs front first
  rw [lexeme_insert_gaps (by rw [first, front]) skipped, first]
  intro empty
  have closed := ended empty
  rw [← first] at closed
  refine ⟨?_, ?_⟩
  · rintro rfl
    cases closed
  · rintro rfl rfl
    cases closed

lemma charsOf_ne_nil {ls : List Lexeme} (nonempty : ls ≠ []) (last : ∀ l ∈ ls.getLast?, l.chars ≠ []) :
    charsOf ls ≠ [] := by
  rcases List.eq_nil_or_concat ls with rfl | ⟨ls, l, rfl⟩
  · exact absurd rfl nonempty
  · rw [List.concat_eq_append] at last ⊢
    simpa using fun _ => last l (by simp)

/-- The lexemes of a text with blanks put in behind one that is not empty and does not take them in. -/
theorem lexemes_insert_gaps {s : LineState} {cs gaps : List Char} {ls ms : List Lexeme}
    (h : lexemes s cs = ls ++ ms) (skipped : ∀ c ∈ gaps, isGap c = true)
    (last : ∀ l ∈ ls.getLast?, l.chars ≠ [] ∧ l.isOpen = false) :
    lexemes s (charsOf ls ++ (gaps ++ charsOf ms)) = ls ++ (gaps.map (fun c => ⟨none, [c]⟩) ++ ms) := by
  have resumed := (lexemes_eq_append h).2
  rw [lexemes_replace h, lexemes_gaps _ skipped, resumed]
  intro front l back split starts
  by_cases alone : back = []
  · subst alone
    obtain ⟨nonempty, closed⟩ := last l (by simp [split])
    exact starts.insert_gaps skipped (by simpa using nonempty) fun _ => closed
  · have more : charsOf back ≠ [] := by
      apply charsOf_ne_nil alone
      intro k hk
      have final : k ∈ ls.getLast? := by
        rw [split, List.append_cons, List.getLast?_append, Option.mem_def.mp hk]
        rfl
      exact (last k final).1
    exact starts.insert_gaps skipped (by simp [more]) fun empty => absurd empty more

/-- Empty lexemes at the end of a list can be left to what follows. -/
lemma exists_nonempty_last (ls : List Lexeme) :
    ∃ front empty, ls = front ++ empty ∧ charsOf empty = [] ∧ ∀ l ∈ front.getLast?, l.chars ≠ [] := by
  induction ls using List.reverseRecOn with
  | nil => exact ⟨[], [], rfl, rfl, by simp⟩
  | append_singleton ls l ih =>
    by_cases width : l.chars = []
    · obtain ⟨front, empty, rfl, none, last⟩ := ih
      exact ⟨front, empty ++ [l], by simp, by simp [none, width], last⟩
    · exact ⟨ls ++ [l], [], by simp, rfl, by simpa using width⟩

section Scanned
variable {a b : String}

/-- A text is cut between two lexemes where a node starts or ends; the first of them is not empty. -/
lemma lexemes_cut_at_node
    (edge : ∃ n ∈ (scan (a ++ b)).content,
      Text.bytes a.toList = n.span.start ∨ Text.bytes a.toList = n.span.stop) :
    ∃ ls ms, lexemes .fresh (a ++ b).toList = ls ++ ms ∧ charsOf ls = a.toList ∧ charsOf ms = b.toList ∧
      ∀ l ∈ ls.getLast?, l.chars ≠ [] := by
  obtain ⟨n, hn, place⟩ := edge
  rw [content_scan] at hn
  obtain ⟨t, ht, rfl⟩ := List.mem_map.mp hn
  obtain ⟨ts, us, split⟩ := List.append_of_mem ht
  obtain ⟨before, chars, after, whole, -, placed, -⟩ := tokens_eq_append_cons split
  have cut : ∃ ls ms, lexemes .fresh (a ++ b).toList = ls ++ ms ∧
      Text.bytes (charsOf ls) = Text.bytes a.toList := by
    rw [Token.node, placed] at place
    rcases place with start | stop
    · exact ⟨before, _, whole, by simpa using start.symm⟩
    · exact ⟨before ++ [⟨some t.kind, chars⟩], after, by simpa using whole, by simpa using stop.symm⟩
  obtain ⟨ls, ms, lexed, width⟩ := cut
  obtain ⟨front, empty, rfl, none, last⟩ := exists_nonempty_last ls
  have text := (lexemes_eq_append lexed).1
  rw [String.toList_append, charsOf_append, none, List.append_nil] at text
  rw [charsOf_append, none, List.append_nil] at width
  obtain ⟨first, second⟩ := Text.append_inj_of_bytes text.symm width
  refine ⟨front, empty ++ ms, by rw [lexed, List.append_assoc], first, ?_, last⟩
  rw [charsOf_append, none]
  exact second

/-- The last lexeme before a cut is a node that ends there, unless it is skipped. -/
lemma mem_content_of_last {text : String} {ls ms : List Lexeme} {kind : Kind} {chars : List Char}
    (whole : lexemes .fresh text.toList = (ls ++ [⟨some kind, chars⟩]) ++ ms) :
    ∃ n ∈ (scan text).content, n.kind = kind ∧ n.span.stop = Text.bytes (charsOf (ls ++ [⟨some kind, chars⟩])) ∧
      (scan text).slice n.span = String.ofList chars := by
  obtain ⟨t, ht, kinded, stop, texted⟩ : ∃ t ∈ tokens 0 (lexemes .fresh text.toList), t.kind = kind ∧
      t.span.stop = Text.bytes (charsOf (ls ++ [⟨some kind, chars⟩])) ∧ t.text = String.ofList chars := by
    rw [whole, List.append_assoc, List.singleton_append, tokens_append, tokens_kind]
    exact ⟨_, List.mem_append_right _ List.mem_cons_self, rfl, by simp, rfl⟩
  refine ⟨t.node, ?_, kinded, stop, (slice_of_mem_tokens ht).trans texted⟩
  rw [content_scan]
  exact List.mem_map_of_mem ht

/-- Blanks put in where a node starts or ends change neither the words of a text nor those of its report,
unless a comment or a quoted value ends there. -/
theorem scan_insert_gaps (a b w : String)
    (edge : ∃ n ∈ (scan (a ++ b)).content,
      Text.bytes a.toList = n.span.start ∨ Text.bytes a.toList = n.span.stop)
    (closed : ∀ n ∈ (scan (a ++ b)).content, n.span.stop = Text.bytes a.toList →
      n.kind ≠ .comment ∧ ¬(n.kind = .string ∧ ((scan (a ++ b)).slice n.span).toList.head? = some '"'))
    (gaps : ∀ c ∈ w.toList, c = ' ' ∨ c = '\t' ∨ c = '\r') :
    (scan (a ++ w ++ b)).words = (scan (a ++ b)).words ∧
      ∀ schema, (diagnose schema (scan (a ++ w ++ b))).map Diagnostic.wording =
        (diagnose schema (scan (a ++ b))).map Diagnostic.wording := by
  obtain ⟨ls, ms, whole, front, back, nonempty⟩ := lexemes_cut_at_node edge
  have skipped : ∀ c ∈ w.toList, isGap c = true := by simpa [isGap, or_assoc] using gaps
  have last : ∀ l ∈ ls.getLast?, l.chars ≠ [] ∧ l.isOpen = false := by
    intro l hl
    refine ⟨nonempty l hl, ?_⟩
    obtain ⟨before, rfl⟩ := List.getLast?_eq_some_iff.mp hl
    obtain ⟨kind?, chars⟩ := l
    cases kind? with
    | none => rfl
    | some kind =>
      obtain ⟨n, hn, rfl, stop, text⟩ := mem_content_of_last whole
      obtain ⟨comment, quoted⟩ := closed n hn (by rw [stop, front])
      rw [text, String.toList_ofList] at quoted
      simpa [Lexeme.isOpen, comment] using quoted
  have spaced := lexemes_insert_gaps whole skipped last
  rw [front, back] at spaced
  have words : (scan (a ++ w ++ b)).words = (scan (a ++ b)).words := by
    have text : (a ++ w ++ b).toList = a.toList ++ (w.toList ++ b.toList) := by simp
    rw [words_scan, words_scan, wordsFrom, wordsFrom, text, spaced, whole, List.filterMap_append,
      List.filterMap_append, filterMap_word?_gaps, List.nil_append, List.filterMap_append]
  exact ⟨words, fun schema => by rw [wording_diagnose, wording_diagnose, words]⟩

/-- Blanks of all three sorts put in between a value and a comment that touches it. -/
theorem scan_insert_gaps_comment :
    (scan ("k=v" ++ "#c")).content =
        [⟨.keyName, ⟨0, 1⟩, []⟩, ⟨.assign, ⟨1, 2⟩, []⟩, ⟨.string, ⟨2, 3⟩, []⟩, ⟨.comment, ⟨3, 5⟩, []⟩] ∧
      (scan ("k=v" ++ " \t\r" ++ "#c")).words =
        [(.keyName, "k"), (.assign, "="), (.string, "v"), (.comment, "#c")] := by
  refine (fun content => ⟨content, ?_⟩) (by rw [scan_eq_within]; rfl)
  have edge : ∃ n ∈ (scan ("k=v" ++ "#c")).content,
      Text.bytes "k=v".toList = n.span.start ∨ Text.bytes "k=v".toList = n.span.stop := by
    rw [content]
    exact ⟨⟨.comment, ⟨3, 5⟩, []⟩, by simp, .inl rfl⟩
  have closed : ∀ n ∈ (scan ("k=v" ++ "#c")).content, n.span.stop = Text.bytes "k=v".toList →
      n.kind ≠ .comment ∧
        ¬(n.kind = .string ∧ ((scan ("k=v" ++ "#c")).slice n.span).toList.head? = some '"') := by
    rw [content]
    intro n hn stop
    simp only [List.mem_cons, List.not_mem_nil, or_false] at hn
    rcases hn with rfl | rfl | rfl | rfl
    · exact absurd stop (by decide)
    · exact absurd stop (by decide)
    · exact ⟨by decide, fun quoted => absurd quoted.2 (by decide)⟩
    · exact absurd stop (by decide)
  have gaps : ∀ c ∈ " \t\r".toList, c = ' ' ∨ c = '\t' ∨ c = '\r' := by
    change ∀ c ∈ [' ', '\t', '\r'], c = ' ' ∨ c = '\t' ∨ c = '\r'
    simp
  rw [(scan_insert_gaps "k=v" "#c" " \t\r" edge closed gaps).1, scan_eq_within]
  rfl

end Scanned

end Keyfile
