import Keyfile.Proofs.AssignFix
import Keyfile.Proofs.Boundaries
import Keyfile.Proofs.Words

/-! Equals signs with nothing but blanks behind them. The value is missed exactly if all these blanks are
skipped between lexemes; any other blank starts a value, and the value is empty. -/
namespace Keyfile
open Adjacency

section Reading

lemma tokens_gaps (offset : Nat) (gaps : List Char) (ls : List Lexeme) :
    tokens offset (gaps.map (fun c => ⟨none, [c]⟩) ++ ls) = tokens (offset + Text.bytes gaps) ls := by
  induction gaps generalizing offset with
  | nil => rfl
  | cons c gaps ih =>
    rw [List.map_cons, List.cons_append, tokens_gap, ih]
    simp [Nat.add_assoc]

lemma lexemes_cons (s : LineState) (c : Char) (cs : List Char) :
    ∃ ls, lexemes s (c :: cs) = (role s.afterAssign c).lexeme s.inContainer c cs :: ls := by
  rw [lexemes, firstLexeme_eq]
  exact ⟨_, rfl⟩

/-- Where no character of a value stands, the line is over. -/
lemma lineOver_of_stop (offset : Nat) (s : LineState) {cs : List Char}
    (stop : ∀ c ∈ cs.head?, isValueChar c = false) :
    ∀ t ∈ (tokens offset (lexemes s cs)).head?, t.kind = .lineBreak ∨ t.kind = .comment := by
  cases cs with
  | nil => simp [lexemes]
  | cons c cs =>
    obtain ⟨ls, first⟩ := lexemes_cons s c cs
    have outside : c = '\n' ∨ isCommentMark c = true := by
      have := stop c rfl
      simp only [isValueChar, Bool.and_eq_false_iff, bne_eq_false_iff_eq, Bool.not_eq_false'] at this
      exact this
    rw [first]
    by_cases newline : c = '\n'
    · subst newline
      simp [role, Role.lexeme, tokens_kind]
    · have mark : isCommentMark c = true := outside.resolve_left newline
      have gap : isGap c = false := by
        simp only [isCommentMark, Bool.or_eq_true, beq_iff_eq] at mark
        rcases mark with rfl | rfl <;> rfl
      simp [role, newline, gap, mark, Role.lexeme, tokens_kind]

/-- A blank that is not skipped is read as the start of a value without characters. -/
lemma lexemes_blank (inContainer : Bool) {c : Char} {cs : List Char} (value : isValueChar c = true)
    (unskipped : isGap c = false) (blank : ∀ x ∈ (c :: cs).takeWhile isValueChar, Text.isBlank x = true) :
    ∃ ls, lexemes ⟨inContainer, true⟩ (c :: cs) = ⟨some .string, []⟩ :: ls := by
  have quote : c ≠ '"' := by
    rintro rfl
    exact absurd (blank '"' (by rw [List.takeWhile_cons, if_pos value]; simp)) (by decide)
  have empty : Text.trimEnd ((c :: cs).takeWhile isValueChar) = [] :=
    Text.trimEnd_append_of_blank [] blank
  obtain ⟨ls, first⟩ := lexemes_cons ⟨inContainer, true⟩ c cs
  refine ⟨ls, ?_⟩
  rw [first, role_value value unskipped, Role.lexeme, valueLexeme_unquoted quote, empty]
  rfl

/-- The first blank of a stretch that is not skipped. -/
lemma exists_unskipped {cs : List Char} (h : ∃ c ∈ cs.takeWhile isValueChar, isGap c = false) :
    ∃ gaps c rest, cs = gaps ++ c :: rest ∧ (∀ g ∈ gaps, isGap g = true) ∧ isGap c = false ∧
      isValueChar c = true ∧ cs.takeWhile isValueChar = gaps ++ (c :: rest).takeWhile isValueChar := by
  induction cs with
  | nil => simp at h
  | cons x cs ih =>
    obtain ⟨c, hc, unskipped⟩ := h
    have value : isValueChar x = true := by
      by_contra stop
      rw [List.takeWhile_cons, if_neg stop] at hc
      cases hc
    by_cases gap : isGap x = true
    · have later : c ∈ cs.takeWhile isValueChar := by
        rw [List.takeWhile_cons, if_pos value] at hc
        rcases List.mem_cons.mp hc with rfl | hc
        · rw [gap] at unskipped
          cases unskipped
        · exact hc
      obtain ⟨gaps, c, rest, rfl, skipped, unskipped, value', stretch⟩ := ih ⟨c, later, unskipped⟩
      refine ⟨x :: gaps, c, rest, rfl, ?_, unskipped, value', ?_⟩
      · simpa [gap] using skipped
      · rw [List.takeWhile_cons, if_pos value, stretch]
        rfl
    · exact ⟨[], x, cs, rfl, by simp, by simpa using gap, value, rfl⟩

end Reading

section Report
variable (schema : Schema) (size : Nat)

/-- The value is missed at a token that is none, or at the end. -/
lemma mem_lint_valueMissing {ts : List Token} {d : Diagnostic} (h : d ∈ lint schema size none none ts)
    (kind : d.message = .valueMissing) :
    (∃ t ∈ ts, t.kind ∉ Kind.literals ∧ d.span = t.span) ∨ d.span = .point size := by
  obtain ⟨before, after, split⟩ := List.append_of_mem h
  obtain ⟨us, vs, first, rest, rfl, said, -, -⟩ := lint_eq_append_cons schema size split
  obtain ⟨last, -, broken, -, -⟩ := report_structural schema size said (by rw [kind]; rfl)
  obtain ⟨-, -, ⟨-, rfl⟩ | ⟨-, -, rfl⟩ | ⟨-, -, rfl⟩ | ⟨-, other, rfl⟩⟩ :=
    interruption_eq_append_cons (show _ = [] ++ d :: [] from broken)
  · cases kind
  · cases kind
  · cases kind
  · cases vs with
    | nil => exact .inr rfl
    | cons t vs =>
      refine .inl ⟨t, by simp, ?_, rfl⟩
      simpa [Window.nextKind?, Kind.isLiteral] using other

end Report

section Scanned
variable {text : String} {nodes rest : List Node} {key assign : Node} {front behind : List Char}

/-- What is read behind an equals sign. -/
lemma scan_assigned (content : (scan text).content = nodes ++ key :: assign :: rest)
    (keyKind : key.kind = .keyName) (assignKind : assign.kind = .assign) (cut : text.toList = front ++ behind)
    (place : Text.bytes front = assign.span.stop) :
    ∃ us keyToken assignToken inContainer, keyToken.kind = .keyName ∧ assignToken.kind = .assign ∧
      tokens 0 (lexemes .fresh text.toList) = us ++ keyToken :: assignToken ::
        tokens (Text.bytes front) (lexemes ⟨inContainer, true⟩ behind) ∧
      rest = (tokens (Text.bytes front) (lexemes ⟨inContainer, true⟩ behind)).map Token.node := by
  rw [content_scan] at content
  obtain ⟨us, _, whole, rfl, keyed⟩ := List.map_eq_append_iff.mp content
  obtain ⟨keyToken, _, rfl, rfl, assigned⟩ := List.map_eq_cons_iff.mp keyed
  obtain ⟨assignToken, vs, rfl, rfl, rfl⟩ := List.map_eq_cons_iff.mp assigned
  obtain ⟨before, chars, after, lexed, -, placed, tail⟩ :=
    tokens_eq_append_cons (show _ = (us ++ [keyToken]) ++ assignToken :: vs by simpa using whole)
  have assignKind : assignToken.kind = .assign := assignKind
  rw [List.append_cons, assignKind] at lexed
  obtain ⟨text_eq, resumed⟩ := lexemes_eq_append lexed
  have width : 0 + Text.bytes (charsOf before) + Text.bytes chars =
      Text.bytes (charsOf (before ++ [⟨some .assign, chars⟩])) := by simp
  have stop : assignToken.node.span.stop = Text.bytes (charsOf (before ++ [⟨some .assign, chars⟩])) := by
    rw [Token.node, placed, ← width]
  obtain ⟨rfl, rfl⟩ := Text.append_inj_of_bytes (cut.symm.trans text_eq) (place.trans stop)
  have state : LineState.fresh.afterAll (before ++ [⟨some .assign, chars⟩]) =
      ⟨(LineState.fresh.afterAll before).inContainer, true⟩ := by
    rw [LineState.afterAll_append]
    rfl
  rw [state] at resumed
  refine ⟨us, keyToken, assignToken, (LineState.fresh.afterAll before).inContainer, keyKind, assignKind, ?_⟩
  rw [resumed, ← width, tail]
  exact ⟨whole, rfl⟩

/-- Only an empty value is read where a blank is not skipped. -/
lemma tokens_blank (offset : Nat) (inContainer : Bool)
    (blank : ∀ c ∈ behind.takeWhile isValueChar, Text.isBlank c = true)
    (unskipped : ∃ c ∈ behind.takeWhile isValueChar, isGap c = false) :
    ∃ start us, start < offset + Text.bytes behind ∧
      tokens offset (lexemes ⟨inContainer, true⟩ behind) = ⟨.string, .point start, ""⟩ :: us := by
  obtain ⟨gaps, c, rest, rfl, skipped, unskipped, value, stretch⟩ := exists_unskipped unskipped
  rw [stretch] at blank
  obtain ⟨ls, first⟩ := lexemes_blank inContainer value unskipped
    fun x hx => blank x (List.mem_append_right _ hx)
  refine ⟨offset + Text.bytes gaps, tokens (offset + Text.bytes gaps) ls, ?_, ?_⟩
  · have := c.utf8Size_pos
    simp only [Text.bytes_append, Text.bytes_cons]
    omega
  · rw [lexemes_gaps _ skipped, tokens_gaps, first]
    rfl

lemma tokens_lineOver (offset : Nat) (inContainer : Bool)
    (gaps : ∀ c ∈ behind.takeWhile isValueChar, isGap c = true) :
    ∀ t ∈ (tokens offset (lexemes ⟨inContainer, true⟩ behind)).head?,
      t.kind = .lineBreak ∨ t.kind = .comment := by
  have stop : ∀ c ∈ (behind.dropWhile isValueChar).head?, isValueChar c = false :=
    stop_of_takeWhile_append List.takeWhile_append_dropWhile
  rw [← List.takeWhile_append_dropWhile (p := isValueChar) (l := behind), lexemes_gaps _ gaps, tokens_gaps]
  exact lineOver_of_stop _ _ stop

/-- Behind an equals sign that only blanks follow on its line or before a comment, a missing value is reported
exactly if all these blanks are spaces, tabs and carriage returns. Where another blank stands, an empty value
is read in its place. -/
theorem valueMissing_iff_gaps (schema : Schema)
    (content : (scan text).content = nodes ++ key :: assign :: rest)
    (keyKind : key.kind = .keyName) (assignKind : assign.kind = .assign) (cut : text.toList = front ++ behind)
    (place : Text.bytes front = assign.span.stop)
    (blank : ∀ c ∈ behind.takeWhile isValueChar, Text.isBlank c = true) :
    ((∃ d ∈ diagnose schema (scan text), d.message = .valueMissing ∧
        d.span = (rest.head?.map (·.span)).getD (.point (scan text).size)) ↔
      ∀ c ∈ behind.takeWhile isValueChar, c = ' ' ∨ c = '\t' ∨ c = '\r') ∧
    ((∃ c ∈ behind.takeWhile isValueChar, ¬(c = ' ' ∨ c = '\t' ∨ c = '\r')) →
      ∃ offset more, rest = ⟨.string, .point offset, []⟩ :: more) := by
  obtain ⟨us, keyToken, assignToken, inContainer, keyKind, assignKind, whole, rfl⟩ :=
    scan_assigned content keyKind assignKind cut place
  have gap_iff : ∀ c, isGap c = true ↔ c = ' ' ∨ c = '\t' ∨ c = '\r' := by
    intro c
    simp [isGap, or_assoc]
  simp only [← gap_iff, Bool.not_eq_true]
  refine ⟨⟨?_, ?_⟩, ?_⟩
  · rintro ⟨d, hd, missing, at_next⟩
    by_contra other
    obtain ⟨start, vs, inside, read⟩ :=
      tokens_blank (Text.bytes front) inContainer blank (by simpa using other)
    have empty : d.span = .point start := by
      rw [at_next, read]
      rfl
    rw [diagnose_scan] at hd
    -- no token but a value is empty, and the text does not end here
    rcases mem_lint_valueMissing schema _ hd missing with ⟨t, ht, kind, same⟩ | same
    · have width := start_lt_stop ht kind
      rw [← same, empty] at width
      exact Nat.lt_irrefl _ width
    · have stop : start = Text.bytes text.toList := congrArg Span.stop (empty.symm.trans same)
      rw [cut, Text.bytes_append] at stop
      omega
  · intro gaps
    have lineOver := tokens_lineOver (Text.bytes front) inContainer gaps
    refine ⟨.error _ .valueMissing, ?_, rfl, rfl⟩
    rw [diagnose_scan, whole, lint_assigned schema _ keyKind assignKind,
      lint_valueMissing schema _ keyKind assignKind lineOver, List.head?_map, Option.map_map]
    exact List.mem_append_right _ List.mem_cons_self
  · intro unskipped
    obtain ⟨start, vs, -, read⟩ := tokens_blank (Text.bytes front) inContainer blank unskipped
    exact ⟨start, vs.map Token.node, by rw [read]; rfl⟩

/-- A space and a tab before a comment are no value. -/
theorem valueMissing_before_comment :
    (scan "k = \t# c").content =
        [] ++ ⟨.keyName, ⟨0, 1⟩, []⟩ :: ⟨.assign, ⟨2, 3⟩, []⟩ :: [⟨.comment, ⟨5, 8⟩, []⟩] ∧
      ∃ d ∈ diagnose .empty (scan "k = \t# c"), d.message = .valueMissing ∧ d.span = ⟨5, 8⟩ := by
  refine (fun content => ⟨content, ?_⟩) (by rw [scan_eq_within]; rfl)
  have cut : "k = \t# c".toList = "k =".toList ++ " \t# c".toList := rfl
  have stretch : " \t# c".toList.takeWhile isValueChar = [' ', '\t'] := rfl
  refine (valueMissing_iff_gaps .empty content rfl rfl cut rfl (List.all_eq_true.mp rfl)).1.mpr ?_
  rw [stretch]
  simp

/-- A no-break space alone behind an equals sign is blank, and no missing value is reported. -/
theorem valueMissing_unreported :
    (scan "k=\u00A0\n").content =
        [⟨.keyName, ⟨0, 1⟩, []⟩, ⟨.assign, ⟨1, 2⟩, []⟩, ⟨.string, ⟨2, 2⟩, []⟩, ⟨.unclassified, ⟨2, 4⟩, []⟩,
          ⟨.lineBreak, ⟨4, 5⟩, []⟩] ∧
      "k=\u00A0\n".toList = "k=".toList ++ "\u00A0\n".toList ∧ Text.bytes "k=".toList = 2 ∧
      (∀ c ∈ "\u00A0\n".toList.takeWhile isValueChar, Text.isBlank c = true) ∧
      ∀ d ∈ diagnose .empty (scan "k=\u00A0\n"), d.message ≠ .valueMissing := by
  refine ⟨by rw [scan_eq_within]; rfl, rfl, rfl, List.all_eq_true.mp rfl, ?_⟩
  rw [scan_eq_within]
  decide +kernel

end Scanned

end Keyfile
