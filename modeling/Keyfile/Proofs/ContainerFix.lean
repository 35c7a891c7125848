import Keyfile.Proofs.Insertion

/-! The fix for a container without its end. A bracket put in takes the rest of the line out of the
container, so names that follow change their kind; but it settles exactly the one error, and where the
line is over, nothing else changes. -/
namespace Keyfile
open Adjacency

section Outside

/-- The lexeme as it is read outside brackets. -/
def Lexeme.outside (l : Lexeme) : Lexeme :=
  { l with kind? := l.kind?.map fun kind => if kind = .containerName then .keyName else kind }

lemma lexeme_outside (r : Role) (c : Char) (cs : List Char) :
    r.lexeme false c cs = (r.lexeme true c cs).outside := by
  cases r with
  | value =>
    obtain ⟨kind, literal, hk⟩ := valueLexeme_kind? (c :: cs)
    have other : kind ≠ .containerName := by
      rintro rfl
      simp [Kind.literals] at literal
    simp only [Role.lexeme, Lexeme.outside, hk, Option.map_some, if_neg other]
    rw [← hk]
  | _ => rfl

lemma Starts.outside {afterAssign : Bool} {l : Lexeme} {rest : List Char}
    (h : Starts ⟨true, afterAssign⟩ l rest) : Starts ⟨false, afterAssign⟩ l.outside rest := by
  obtain ⟨c, cs, text, rfl⟩ := h
  exact ⟨c, cs, text, lexeme_outside _ c cs⟩

/-- Brackets and line breaks end the difference between inside and outside; other lexemes keep it. -/
lemma after_outside (afterAssign : Bool) (l : Lexeme) :
    (l.outside = l ∧
      LineState.after ⟨true, afterAssign⟩ l.kind? = LineState.after ⟨false, afterAssign⟩ l.kind?) ∨
    (l.kind? ≠ some .containerStart ∧ ∃ afterAssign',
      LineState.after ⟨true, afterAssign⟩ l.kind? = ⟨true, afterAssign'⟩ ∧
      LineState.after ⟨false, afterAssign⟩ l.outside.kind? = ⟨false, afterAssign'⟩) := by
  obtain ⟨kind?, chars⟩ := l
  cases kind? with
  | none => exact .inr ⟨by simp, afterAssign, rfl, rfl⟩
  | some kind =>
    cases kind with
    | lineBreak => exact .inl ⟨rfl, rfl⟩
    | containerStart => exact .inl ⟨rfl, rfl⟩
    | containerEnd => exact .inl ⟨rfl, rfl⟩
    | assign => exact .inr ⟨by simp, true, rfl, rfl⟩
    | string => exact .inr ⟨by simp, false, rfl, rfl⟩
    | number => exact .inr ⟨by simp, false, rfl, rfl⟩
    | boolean => exact .inr ⟨by simp, false, rfl, rfl⟩
    | _ => exact .inr ⟨by simp, afterAssign, rfl, rfl⟩

/-- Inside and outside brackets, the same text gives the same lexemes, except that names up to the next
bracket or line break are of another kind. -/
lemma lexemes_outside (afterAssign : Bool) (cs : List Char) :
    ∃ ls ms, lexemes ⟨true, afterAssign⟩ cs = ls ++ ms ∧
      lexemes ⟨false, afterAssign⟩ cs = ls.map Lexeme.outside ++ ms ∧
      ∀ l ∈ ls, l.kind? ≠ some .containerStart := by
  generalize h : lexemes ⟨true, afterAssign⟩ cs = all
  induction all generalizing afterAssign cs with
  | nil =>
    have empty : cs = [] := by rw [← charsOf_lexemes ⟨true, afterAssign⟩ cs, h]; rfl
    subst empty
    exact ⟨[], [], rfl, by simp [lexemes], by simp⟩
  | cons l all ih =>
    obtain ⟨rest, rfl, starts, tail⟩ := lexemes_eq_cons h
    have outside : lexemes ⟨false, afterAssign⟩ (l.chars ++ rest) =
        l.outside :: lexemes (LineState.after ⟨false, afterAssign⟩ l.outside.kind?) rest :=
      lexemes_of_starts starts.outside
    rcases after_outside afterAssign l with ⟨same, state⟩ | ⟨kind, afterAssign', inner, outer⟩
    · refine ⟨[], l :: all, rfl, ?_, by simp⟩
      rw [outside, same, ← state, ← tail]
      rfl
    · rw [inner] at tail
      obtain ⟨ls, ms, rfl, further, kinds⟩ := ih afterAssign' rest tail.symm
      refine ⟨l :: ls, ms, rfl, ?_, ?_⟩
      · rw [outside, outer, further]
        rfl
      · intro k hk
        rcases List.mem_cons.mp hk with rfl | hk
        · exact kind
        · exact kinds k hk

lemma charsOf_map_outside (ls : List Lexeme) : charsOf (ls.map Lexeme.outside) = charsOf ls := by
  simp [charsOf, List.flatMap_map, Lexeme.outside]

lemma unopened_map_outside {ls : List Lexeme} (h : ∀ l ∈ ls, l.kind? ≠ some .containerStart) :
    ∀ l ∈ ls.map Lexeme.outside, l.kind? ≠ some .containerStart := by
  intro _ member opened
  obtain ⟨l, hl, rfl⟩ := List.mem_map.mp member
  obtain ⟨kind, hk, same⟩ := Option.map_eq_some_iff.mp opened
  split at same
  · cases same
  · exact h l hl (by rw [hk, same])

lemma unopened_tokens (offset : Nat) {ls : List Lexeme} (h : ∀ l ∈ ls, l.kind? ≠ some .containerStart) :
    ∀ t ∈ tokens offset ls, t.kind ≠ .containerStart := by
  intro t ht opened
  obtain ⟨l, hl, kind⟩ := exists_lexeme_of_mem_tokens ht
  exact h l hl (by rw [kind, opened])

end Outside

section Errors
variable (schema : Schema) (size : Nat)

/-- A container end is missed after an opened name, and this is the first thing said there. -/
lemma report_missingEnd {key? : Option Token} {w : Window Token} {first rest : List Diagnostic}
    {d : Diagnostic} (h : w.report schema size key? = first ++ d :: rest)
    (kind : d.message = .containerEndMissing) :
    ∃ start name, w.older? = some start ∧ w.last? = some name ∧ start.kind = .containerStart ∧
      name.kind = .containerName ∧ d = missingEnd name.span.stop ∧ first = [] ∧
      rest = (w.next?.map fun token =>
        findings schema (some .containerStart) (some .containerName) token key?).getD [] := by
  obtain ⟨older?, last?, next?⟩ := w
  obtain ⟨name, last, broken, rfl, rfl⟩ := report_structural schema size h (by rw [kind]; rfl)
  obtain ⟨-, -, ⟨-, rfl⟩ | ⟨opened, named, rfl⟩ | ⟨-, -, rfl⟩ | ⟨-, -, rfl⟩⟩ :=
    interruption_eq_append_cons (show _ = [] ++ d :: [] from broken)
  · cases kind
  · obtain ⟨start, rfl, startKind⟩ := Option.map_eq_some_iff.mp opened
    simp only at last
    subst last
    refine ⟨start, name, rfl, rfl, startKind, named, rfl, rfl, ?_⟩
    rw [← startKind, ← named]
    rfl
  · cases kind
  · cases kind

/-- The errors among diagnostics that are about a missing container end. -/
def missingEnds (ds : List Diagnostic) : List Diagnostic := ds.filter (·.message = .containerEndMissing)

@[simp] theorem missingEnds_append (ds es : List Diagnostic) :
    missingEnds (ds ++ es) = missingEnds ds ++ missingEnds es := List.filter_append ..

lemma missingEnds_report {key? older? last? next? : Option Token}
    (unopened : older?.map (·.kind) ≠ some .containerStart) :
    missingEnds (Window.report schema size key? ⟨older?, last?, next?⟩) = [] := by
  rw [missingEnds, List.filter_eq_nil_iff]
  intro d hd kind
  obtain ⟨first, rest, said⟩ := List.append_of_mem hd
  obtain ⟨start, -, rfl, -, opened, -⟩ := report_missingEnd schema size said (of_decide_eq_true kind)
  exact unopened (congrArg some opened)

lemma missingEnds_further {last? : Option Token} (last : last?.map (·.kind) ≠ some .containerStart)
    (ts : List Token) :
    missingEnds (further schema size last? ts) = missingEnds (further schema size none ts) := by
  cases ts with
  | nil => rfl
  | cons t ts =>
    rw [further, further, lint_eq_report, lint_eq_report, missingEnds_append, missingEnds_append,
      missingEnds_report schema size last, missingEnds_report schema size (by simp)]

/-- Tokens that open no container do not matter to the containers opened later. -/
lemma missingEnds_lint {older? last? : Option Token} {ts : List Token}
    (older : older?.map (·.kind) ≠ some .containerStart) (last : last?.map (·.kind) ≠ some .containerStart)
    (unopened : ∀ t ∈ ts, t.kind ≠ .containerStart) (us : List Token) :
    missingEnds (lint schema size older? last? (ts ++ us)) = missingEnds (lint schema size none none us) := by
  induction ts generalizing older? last? with
  | nil =>
    rw [List.nil_append, lint_eq_report, lint_eq_report, missingEnds_append, missingEnds_append,
      missingEnds_report schema size older, missingEnds_report schema size (by simp),
      missingEnds_further schema size last]
  | cons t ts ih =>
    have said : missingEnds (remark schema older? last? t) = [] := missingEnds_report schema 0 older
    have kind : (some t).map (·.kind) ≠ some .containerStart := by
      simpa using unopened t (by simp)
    rw [List.cons_append, lint_cons, missingEnds_append, said, List.nil_append,
      ih last kind (fun u hu => unopened u (by simp [hu]))]

lemma missingEnds_findings (older? last? : Option Kind) (token : Token) (key? : Option Token) :
    missingEnds (findings schema older? last? token key?) = [] := by
  rw [missingEnds, List.filter_eq_nil_iff]
  intro d hd kind
  have other := findings_message schema hd
  rw [of_decide_eq_true kind] at other
  cases other

lemma mem_missingEnds_lint {ts : List Token} {d : Diagnostic}
    (h : d ∈ missingEnds (lint schema size none none ts)) :
    ∃ name ∈ ts, name.kind = .containerName ∧ d = missingEnd name.span.stop := by
  obtain ⟨said, kind⟩ := List.mem_filter.mp h
  obtain ⟨before, after, split⟩ := List.append_of_mem said
  obtain ⟨us, vs, first, rest, rfl, report, -⟩ := lint_eq_append_cons schema size split
  obtain ⟨start, name, older, last, -, named, rfl, -⟩ :=
    report_missingEnd schema size report (of_decide_eq_true kind)
  obtain ⟨ts, rfl⟩ := slide_eq_some (Prod.ext older last)
  exact ⟨name, by simp, named, rfl⟩

/-- What is said behind a container name without an end. -/
def afterName (start name : Token) (ts : List Token) : List Diagnostic :=
  (ts.head?.map fun token =>
    findings schema (some .containerStart) (some .containerName) token (some start)).getD [] ++
    further schema size (some name) ts

lemma missingEnds_afterName {name : Token} (named : name.kind = .containerName) (start : Token)
    (ts : List Token) :
    missingEnds (afterName schema size start name ts) = missingEnds (lint schema size none none ts) := by
  have found : missingEnds ((ts.head?.map fun token =>
      findings schema (some .containerStart) (some .containerName) token (some start)).getD []) = [] := by
    cases ts with
    | nil => rfl
    | cons t ts =>
      exact missingEnds_findings schema (some .containerStart) (some .containerName) t (some start)
  rw [afterName, missingEnds_append, found, missingEnds_further schema size (by simp [named]), lint_eq_report,
    missingEnds_append, missingEnds_report schema size (by simp)]

lemma afterName_lineOver (start name : Token) {ts : List Token}
    (lineOver : ∀ t ∈ ts.head?, t.kind = .lineBreak ∨ t.kind = .comment) :
    afterName schema size start name ts = further schema size none ts ∧
      lint schema size none none ts = further schema size none ts := by
  refine ⟨?_, ?_⟩
  · rw [afterName, findings_head_lineOver schema lineOver, further_lineOver schema size (some name) lineOver,
      List.nil_append]
  · cases ts with
    | nil => rfl
    | cons t ts =>
      rw [lint_cons, remark_eq, findings_lineOver schema (lineOver t rfl)]
      rfl

/-- An end put in closes the container, and the report starts anew behind it. -/
lemma lint_closed {start name closer : Token} (opened : start.kind = .containerStart)
    (named : name.kind = .containerName) (closed : closer.kind = .containerEnd) (ts us : List Token) :
    lint schema size none none ((ts ++ [start, name]) ++ closer :: us) =
      remarks schema none none (ts ++ [start, name]) ++ lint schema size none none us := by
  have window : slide none none (ts ++ [start, name]) = (some start, some name) := by
    rw [show ts ++ [start, name] = (ts ++ [start]) ++ [name] by simp, slide_append_singleton,
      slide_append_singleton]
  have quiet : remark schema (some start) (some name) closer = [] := by
    rw [remark_eq]
    simp [interruption, findings, named, opened, closed]
  have settled : awaiting ((some name).map (·.kind)) ((some closer).map (·.kind)) = none := by
    simp only [Option.map_some, closed]
    rfl
  rw [lint_append, window, lint_cons, quiet, lint_settled schema size settled, List.nil_append]

end Errors

section Room
variable (schema : Schema) (size : Nat)

lemma missingEnd_relocate (f : Nat → Nat) (stop : Nat) :
    (missingEnd stop).relocate f = missingEnd (f stop) := rfl

lemma missingEnds_relocate (f : Nat → Nat) (ds : List Diagnostic) :
    missingEnds (ds.map (·.relocate f)) = (missingEnds ds).map (·.relocate f) := by
  rw [missingEnds, missingEnds, List.filter_map]
  rfl

/-- Inside or outside brackets, the same containers that are opened later miss their ends. -/
lemma missingEnds_outside (p : Nat) (cs : List Char) :
    missingEnds (lint schema (size + 1) none none (tokens (p + 1) (lexemes ⟨false, false⟩ cs))) =
      (missingEnds (lint schema size none none (tokens p (lexemes ⟨true, false⟩ cs)))).map
        (·.relocate (makeRoom p)) := by
  obtain ⟨ls, ms, inside, outside, unopened⟩ := lexemes_outside false cs
  have inner := unopened_tokens p unopened
  have outer := unopened_tokens (p + 1) (unopened_map_outside unopened)
  have place : p + 1 + Text.bytes (charsOf ls) = p + Text.bytes (charsOf ls) + 1 := by omega
  have moved := lint_relocate schema size none none (· + 1) (tokens (p + Text.bytes (charsOf ls)) ms)
  rw [Option.map_none] at moved
  -- up to the next bracket or line break no container is opened, and from there on the lexemes agree
  rw [outside, inside, tokens_append, tokens_append, charsOf_map_outside, place,
    missingEnds_lint schema _ (by simp) (by simp) outer, missingEnds_lint schema _ (by simp) (by simp) inner,
    tokens_add, moved, missingEnds_relocate]
  apply List.map_congr_left
  intro d hd
  obtain ⟨name, hn, named, rfl⟩ := mem_missingEnds_lint schema size hd
  have later : p < name.span.stop := by
    have lower := (tokens_bounds hn).1
    rw [← (lexemes_eq_append inside).2] at hn
    have nonempty := start_lt_stop hn (by rw [named]; decide)
    omega
  rw [missingEnd_relocate, missingEnd_relocate, makeRoom_of_lt later]

/-- Where the line is over, what is said behind the name stays as it is. -/
lemma lint_outside_of_over (p : Nat) (start name : Token) (cs : List Char)
    (lineOver : ∀ t ∈ (tokens p (lexemes ⟨true, false⟩ cs)).head?,
      t.kind = .lineBreak ∨ t.kind = .comment) :
    lint schema (p + Text.bytes cs + 1) none none (tokens (p + 1) (lexemes ⟨false, false⟩ cs)) =
      (afterName schema (p + Text.bytes cs) start name (tokens p (lexemes ⟨true, false⟩ cs))).map
        (·.relocate (makeRoom p)) := by
  have same : lexemes ⟨false, false⟩ cs = lexemes ⟨true, false⟩ cs := by
    apply lexemes_of_lineOver
    rw [← map_kind_tokens p, List.head?_map]
    simpa using lineOver
  have moved : ∀ t ∈ (tokens (p + 1) (lexemes ⟨true, false⟩ cs)).head?,
      t.kind = .lineBreak ∨ t.kind = .comment := by
    rw [tokens_add, List.head?_map]
    simpa [Token.relocate] using lineOver
  rw [same, (afterName_lineOver schema _ start name moved).2, further_makeRoom schema p lineOver,
    (afterName_lineOver schema _ start name lineOver).1]

end Room

section Scanned
variable {schema : Schema} {text : String}

/-- The token of a name that starts at a byte offset. -/
def containerToken (offset : Nat) (chars : List Char) : Token :=
  ⟨.containerName, ⟨offset, offset + Text.bytes chars⟩, String.ofList chars⟩

/-- Where in the scanned text a container end is missed, and what is said before and after it. -/
lemma scan_missingEnd {before after : List Diagnostic} {d : Diagnostic}
    (found : diagnose schema (scan text) = before ++ d :: after)
    (kind : d.message = .containerEndMissing) :
    ∃ ls chars ms ts start, lexemes .fresh text.toList = ls ++ ⟨some .containerName, chars⟩ :: ms ∧
      tokens 0 ls = ts ++ [start] ∧ start.kind = .containerStart ∧
      d = missingEnd (Text.bytes (charsOf ls) + Text.bytes chars) ∧
      before = remarks schema none none (ts ++ [start, containerToken (Text.bytes (charsOf ls)) chars]) ∧
      after = afterName schema (Text.bytes text.toList) start (containerToken (Text.bytes (charsOf ls)) chars)
        (tokens (Text.bytes (charsOf ls) + Text.bytes chars) ms) := by
  rw [diagnose_scan] at found
  obtain ⟨us, vs, first, rest, split, said, rfl, rfl⟩ := lint_eq_append_cons schema _ found
  obtain ⟨start, name, older, last, startKind, nameKind, rfl, rfl, rfl⟩ := report_missingEnd schema _ said kind
  simp only at older last
  obtain ⟨ts, rfl⟩ := slide_eq_some (Prod.ext older last)
  obtain ⟨ls, chars, ms, text', front, place, rfl⟩ :=
    tokens_eq_append_cons (show _ = (ts ++ [start]) ++ name :: vs by simpa using split)
  rw [nameKind, Nat.zero_add] at place
  rw [nameKind] at text'
  obtain rfl : name = containerToken (Text.bytes (charsOf ls)) chars := place
  refine ⟨ls, chars, ms, ts, start, text', front, startKind, rfl, List.append_nil _, ?_⟩
  rw [older, last, Nat.zero_add]
  rfl

/-- The lexemes with an end put in behind a container name: what follows is read outside brackets. -/
lemma lexemes_insert_end {s : LineState} {cs chars : List Char} {ls ms : List Lexeme}
    (h : lexemes s cs = ls ++ ⟨some .containerName, chars⟩ :: ms) :
    cs = (charsOf ls ++ chars) ++ charsOf ms ∧ lexemes ⟨true, false⟩ (charsOf ms) = ms ∧
      lexemes s ((charsOf ls ++ chars) ++ ']' :: charsOf ms) =
        ls ++ ⟨some .containerName, chars⟩ :: ⟨some .containerEnd, [']']⟩ ::
          lexemes ⟨false, false⟩ (charsOf ms) := by
  obtain ⟨text, rest, changed⟩ := lexemes_behind_name h (.inl rfl)
  have stop : isNameChar ']' = false := by decide +kernel
  have ended : lexemes ⟨true, false⟩ (']' :: charsOf ms) =
      ⟨some .containerEnd, [']']⟩ :: lexemes ⟨false, false⟩ (charsOf ms) :=
    lexemes_of_starts ⟨']', charsOf ms, rfl, rfl⟩
  refine ⟨text, rest, ?_⟩
  rw [changed (']' :: charsOf ms) (by simpa using stop), ← ended]
  rfl

lemma tokens_opening {ls : List Lexeme} {ts : List Token} {start : Token}
    (front : tokens 0 ls = ts ++ [start]) (chars : List Char) (ms : List Lexeme) :
    tokens 0 (ls ++ ⟨some .containerName, chars⟩ :: ms) =
      (ts ++ [start, containerToken (Text.bytes (charsOf ls)) chars]) ++
        tokens (Text.bytes (charsOf ls) + Text.bytes chars) ms := by
  rw [tokens_append, front, Nat.zero_add, tokens_kind]
  simp [containerToken]

lemma remarks_opening {ls : List Lexeme} {ts : List Token} {start : Token}
    (front : tokens 0 ls = ts ++ [start]) (schema : Schema) (chars : List Char) :
    (remarks schema none none (ts ++ [start, containerToken (Text.bytes (charsOf ls)) chars])).map
        (·.relocate (makeRoom (Text.bytes (charsOf ls) + Text.bytes chars))) =
      remarks schema none none (ts ++ [start, containerToken (Text.bytes (charsOf ls)) chars]) := by
  have kept := remarks_makeRoom schema (ls ++ [⟨some .containerName, chars⟩])
  rw [tokens_opening front] at kept
  simpa using kept

/-- The report with an end put in behind a container name. -/
lemma diagnose_insert_end (schema : Schema) {ls ms : List Lexeme} {chars : List Char} {ts : List Token}
    {start : Token} (whole : lexemes .fresh text.toList = ls ++ ⟨some .containerName, chars⟩ :: ms)
    (front : tokens 0 ls = ts ++ [start]) (opened : start.kind = .containerStart) :
    diagnose schema (scan
        ((TextEdit.insertion (Text.bytes (charsOf ls) + Text.bytes chars) "]").apply text)) =
      remarks schema none none (ts ++ [start, containerToken (Text.bytes (charsOf ls)) chars]) ++
        lint schema (Text.bytes text.toList + 1) none none
          (tokens (Text.bytes (charsOf ls) + Text.bytes chars + 1) (lexemes ⟨false, false⟩ (charsOf ms))) := by
  obtain ⟨cut, -, fixed⟩ := lexemes_insert_end whole
  have applied := apply_insertion cut "]"
  rw [Text.bytes_append, show "]".toList ++ charsOf ms = ']' :: charsOf ms from rfl] at applied
  have size : Text.bytes ((charsOf ls ++ chars) ++ ']' :: charsOf ms) = Text.bytes text.toList + 1 := by
    rw [cut, Text.bytes_append, Text.bytes_append _ (charsOf ms), Text.bytes_cons,
      show ']'.utf8Size = 1 from rfl]
    omega
  rw [applied, diagnose_scan, String.toList_ofList, fixed, size, tokens_opening front, tokens_kind,
    lint_closed schema _ opened rfl rfl]
  rfl

/-- The fix of a missing container end settles this error and no other one of its kind; and where the line
is over behind the name, the report of the fixed text is the old one without the error. -/
theorem diagnose_fix_containerEnd {before after : List Diagnostic} {d : Diagnostic}
    (found : diagnose schema (scan text) = before ++ d :: after)
    (kind : d.message = .containerEndMissing) :
    ∃ fix nodes start name rest, d.fixes = [fix] ∧
      (scan text).content = nodes ++ start :: name :: rest ∧
      start.kind = .containerStart ∧ name.kind = .containerName ∧ d.span = .point name.span.stop ∧
      missingEnds (diagnose schema (scan (fix.apply text))) =
        (missingEnds (before ++ after)).map (·.relocate (makeRoom name.span.stop)) ∧
      ((∀ next ∈ rest.head?, next.kind = .lineBreak ∨ next.kind = .comment) →
        diagnose schema (scan (fix.apply text)) =
          (before ++ after).map (·.relocate (makeRoom name.span.stop))) := by
  obtain ⟨ls, chars, ms, ts, start, whole, front, opened, rfl, rfl, rfl⟩ := scan_missingEnd found kind
  obtain ⟨cut, inside, -⟩ := lexemes_insert_end whole
  have size : Text.bytes text.toList =
      Text.bytes (charsOf ls) + Text.bytes chars + Text.bytes (charsOf ms) := by
    rw [cut, Text.bytes_append, Text.bytes_append]
  have again := diagnose_insert_end schema whole front opened
  have kept := remarks_opening front schema chars
  have stop : (containerToken (Text.bytes (charsOf ls)) chars).node.span.stop =
      Text.bytes (charsOf ls) + Text.bytes chars := rfl
  refine ⟨⟨.fix, .insertion (Text.bytes (charsOf ls) + Text.bytes chars) "]"⟩, ts.map Token.node, start.node,
    (containerToken (Text.bytes (charsOf ls)) chars).node,
    (tokens (Text.bytes (charsOf ls) + Text.bytes chars) ms).map Token.node, rfl, ?_, opened, rfl, rfl, ?_, ?_⟩
  · rw [content_scan, whole, tokens_opening front]
    simp
  · have later := missingEnds_outside schema (Text.bytes text.toList)
      (Text.bytes (charsOf ls) + Text.bytes chars) (charsOf ms)
    rw [inside] at later
    rw [Fix.apply, again, stop, missingEnds_append, later, missingEnds_append,
      missingEnds_afterName schema _ rfl, List.map_append, ← missingEnds_relocate _ (remarks ..), kept]
  · intro lineOver
    have later := lint_outside_of_over schema (Text.bytes (charsOf ls) + Text.bytes chars) start
      (containerToken (Text.bytes (charsOf ls)) chars) (charsOf ms)
    rw [inside, ← size] at later
    rw [Fix.apply, again, stop, List.map_append, kept, later (by simpa [Token.node] using lineOver)]

/-- The second of three ends is put in. -/
theorem diagnose_fix_containerEnd_between :
    diagnose .empty (scan "[a [b # c\n[d k") =
        [.warning ⟨1, 2⟩ .containerUnknown, missingEnd 2, .warning ⟨4, 5⟩ .containerUnknown] ++
          missingEnd 5 :: [.warning ⟨11, 12⟩ .containerUnknown, missingEnd 12] ∧
      ∃ fix, (missingEnd 5).fixes = [fix] ∧
        missingEnds (diagnose .empty (scan (fix.apply "[a [b # c\n[d k"))) = [missingEnd 2, missingEnd 13] := by
  refine (fun found => ⟨found, ?_⟩) (by rw [scan_eq_within]; decide +kernel)
  obtain ⟨fix, nodes, start, name, rest, fixes, -, -, -, place, ends, -⟩ := diagnose_fix_containerEnd found rfl
  have stop : name.span.stop = 5 := (congrArg Span.stop place).symm
  refine ⟨fix, fixes, ?_⟩
  rw [ends, stop]
  decide +kernel

end Scanned

end Keyfile
