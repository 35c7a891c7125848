import Keyfile.Proofs.Insertion

/-! The fix for a key without an equals sign. From the sign on, the rest of the line is read as a value, so
much can change there; but this error is gone, other lines are not reached, and where nothing is left of the
line, the value is missed in place of the sign. -/
namespace Keyfile
open Adjacency

section Errors
variable (schema : Schema) (size : Nat)

/-- An equals sign is missed behind a key that something else follows. -/
lemma lint_missingAssign {ts : List Token} {before after : List Diagnostic} {d : Diagnostic}
    (h : lint schema size none none ts = before ++ d :: after) (kind : d.message = .assignMissing) :
    ∃ us key vs older?, ts = us ++ key :: vs ∧ key.kind = .keyName ∧
      vs.head?.map (·.kind) ≠ some .assign ∧ d = missingAssign key.span.stop ∧
      before = remarks schema none none (us ++ [key]) ∧
      after = (vs.head?.map fun token =>
        findings schema (older?.map (·.kind)) (some .keyName) token older?).getD [] ++
          further schema size (some key) vs := by
  obtain ⟨us, vs, first, rest, rfl, said, rfl, rfl⟩ := lint_eq_append_cons schema size h
  obtain ⟨key, last, broken, rfl, rfl⟩ := report_structural schema size said (by rw [kind]; rfl)
  obtain ⟨us, rfl⟩ := slide_snd_eq_some last
  obtain ⟨-, -, ⟨-, rfl⟩ | ⟨-, -, rfl⟩ | ⟨named, other, rfl⟩ | ⟨-, -, rfl⟩⟩ :=
    interruption_eq_append_cons (show _ = [] ++ d :: [] from broken)
  · cases kind
  · cases kind
  · refine ⟨us, key, vs, (slide none none us).2, by simp, named, other, rfl, List.append_nil _, ?_⟩
    simp only [Window.olderKind?, Window.lastKind?, slide_append_singleton, Option.map_some, named]
  · cases kind

/-- With an equals sign behind it, a key waits for its value. -/
lemma lint_assigned {key assign : Token} (keyKind : key.kind = .keyName) (assignKind : assign.kind = .assign)
    (ts us : List Token) :
    lint schema size none none (ts ++ key :: assign :: us) =
      remarks schema none none (ts ++ [key]) ++ lint schema size (some key) (some assign) us := by
  have quiet : ∀ older? : Option Token, remark schema older? (some key) assign = [] := by
    intro older?
    rw [remark_eq]
    simp [interruption, findings, keyKind, assignKind, Kind.isLiteral, Kind.literals]
  rw [List.append_cons, lint_append, slide_append_singleton, lint_cons, quiet, List.nil_append]

/-- Where the line is over, the value is missed. -/
lemma lint_valueMissing {key assign : Token} (keyKind : key.kind = .keyName)
    (assignKind : assign.kind = .assign) {ts : List Token}
    (lineOver : ∀ t ∈ ts.head?, t.kind = .lineBreak ∨ t.kind = .comment) :
    lint schema size (some key) (some assign) ts =
      .error ((ts.head?.map (·.span)).getD (.point size)) .valueMissing :: further schema size none ts := by
  cases ts with
  | nil =>
    rw [lint_nil, closing_eq]
    simp [interruption, keyKind, assignKind, further]
  | cons t ts =>
    have missed : interruption (some .keyName) assign (some t.kind) t.span =
        [.error t.span .valueMissing] := by
      rcases lineOver t rfl with kind | kind <;>
        simp [interruption, assignKind, kind, Kind.isLiteral, Kind.literals]
    rw [← further_lineOver schema size (some assign) lineOver, lint_cons, remark_eq,
      findings_lineOver schema (lineOver t rfl)]
    simp only [Option.map_some, Option.getD_some, keyKind, missed]
    rfl

end Errors

section Scanned
variable {schema : Schema} {text : String}

/-- The token of a key that starts at a byte offset. -/
def keyToken (offset : Nat) (chars : List Char) : Token :=
  ⟨.keyName, ⟨offset, offset + Text.bytes chars⟩, String.ofList chars⟩

/-- The token of an equals sign. -/
def assignToken (offset : Nat) : Token := ⟨.assign, ⟨offset, offset + 1⟩, "="⟩

/-- Where in the scanned text an equals sign is missed, and what is said before and after it. -/
lemma scan_missingAssign {before after : List Diagnostic} {d : Diagnostic}
    (found : diagnose schema (scan text) = before ++ d :: after) (kind : d.message = .assignMissing) :
    ∃ ls chars ms older?, lexemes .fresh text.toList = ls ++ ⟨some .keyName, chars⟩ :: ms ∧
      d = missingAssign (Text.bytes (charsOf ls) + Text.bytes chars) ∧
      before = remarks schema none none (tokens 0 ls ++ [keyToken (Text.bytes (charsOf ls)) chars]) ∧
      after = ((tokens (Text.bytes (charsOf ls) + Text.bytes chars) ms).head?.map fun token =>
        findings schema (older?.map (·.kind)) (some .keyName) token older?).getD [] ++
          further schema (Text.bytes text.toList) (some (keyToken (Text.bytes (charsOf ls)) chars))
            (tokens (Text.bytes (charsOf ls) + Text.bytes chars) ms) := by
  rw [diagnose_scan] at found
  obtain ⟨us, key, vs, older?, split, named, -, rfl, rfl, rfl⟩ := lint_missingAssign schema _ found kind
  obtain ⟨ls, chars, ms, whole, rfl, place, rfl⟩ := tokens_eq_append_cons split
  rw [named, Nat.zero_add] at place
  rw [named] at whole
  obtain rfl : key = keyToken (Text.bytes (charsOf ls)) chars := place
  refine ⟨ls, chars, ms, older?, whole, rfl, rfl, ?_⟩
  rw [Nat.zero_add]

/-- The lexemes with an equals sign put in behind a key: what follows is read as a value. -/
lemma lexemes_insert_assign {s : LineState} {cs chars : List Char} {ls ms : List Lexeme}
    (h : lexemes s cs = ls ++ ⟨some .keyName, chars⟩ :: ms) :
    cs = (charsOf ls ++ chars) ++ charsOf ms ∧ lexemes ⟨false, false⟩ (charsOf ms) = ms ∧
      lexemes s ((charsOf ls ++ chars) ++ '=' :: charsOf ms) =
        ls ++ ⟨some .keyName, chars⟩ :: ⟨some .assign, ['=']⟩ :: lexemes ⟨false, true⟩ (charsOf ms) := by
  obtain ⟨text, rest, changed⟩ := lexemes_behind_name h (.inr rfl)
  have stop : isNameChar '=' = false := by decide +kernel
  have assigned : lexemes ⟨false, false⟩ ('=' :: charsOf ms) =
      ⟨some .assign, ['=']⟩ :: lexemes ⟨false, true⟩ (charsOf ms) :=
    lexemes_of_starts ⟨'=', charsOf ms, rfl, rfl⟩
  refine ⟨text, rest, ?_⟩
  rw [changed ('=' :: charsOf ms) (by simpa using stop), ← assigned]
  rfl

lemma remarks_keyed (schema : Schema) (ls : List Lexeme) (chars : List Char) :
    (remarks schema none none (tokens 0 ls ++ [keyToken (Text.bytes (charsOf ls)) chars])).map
        (·.relocate (makeRoom (Text.bytes (charsOf ls) + Text.bytes chars))) =
      remarks schema none none (tokens 0 ls ++ [keyToken (Text.bytes (charsOf ls)) chars]) := by
  have kept := remarks_makeRoom schema (ls ++ [⟨some .keyName, chars⟩])
  rw [tokens_append, tokens_kind, Nat.zero_add] at kept
  simpa [keyToken] using kept

lemma tokens_insert_assign {chars : List Char} {ls ms : List Lexeme}
    (whole : lexemes .fresh text.toList = ls ++ ⟨some .keyName, chars⟩ :: ms) :
    tokens 0 (lexemes .fresh ((TextEdit.insertion (Text.bytes (charsOf ls) + Text.bytes chars) "=").apply
        text).toList) =
      tokens 0 ls ++ keyToken (Text.bytes (charsOf ls)) chars ::
        assignToken (Text.bytes (charsOf ls) + Text.bytes chars) ::
          tokens (Text.bytes (charsOf ls) + Text.bytes chars + 1) (lexemes ⟨false, true⟩ (charsOf ms)) := by
  obtain ⟨cut, -, fixed⟩ := lexemes_insert_assign whole
  have applied := apply_insertion cut "="
  rw [Text.bytes_append, show "=".toList ++ charsOf ms = '=' :: charsOf ms from rfl] at applied
  rw [applied, String.toList_ofList, fixed, tokens_append, tokens_kind, tokens_kind, Nat.zero_add]
  rfl

/-- No equals sign is missed behind a key that has one. -/
lemma stop_ne_of_assigned {us vs : List Token} {key assign : Token}
    (split : tokens 0 (lexemes .fresh text.toList) = us ++ key :: assign :: vs)
    (keyKind : key.kind = .keyName) (assignKind : assign.kind = .assign) :
    ∀ e ∈ diagnose schema (scan text), e.message = .assignMissing → e.span.start ≠ key.span.stop := by
  intro e he message same
  rw [diagnose_scan] at he
  obtain ⟨before, after, said⟩ := List.append_of_mem he
  obtain ⟨us', key', vs', -, split', named, other, rfl, -⟩ := lint_missingAssign schema _ said message
  have same : key'.span.stop = key.span.stop := same
  have nonempty : ∀ t ∈ tokens 0 (lexemes .fresh text.toList), t.kind = .keyName →
      t.span.start < t.span.stop := by
    intro t ht named
    exact start_lt_stop ht (by rw [named]; decide)
  have left := nonempty key (by rw [split]; simp) keyKind
  have right := nonempty key' (by rw [split']; simp) named
  -- keys that end at one place are the same, and so is what follows them
  obtain ⟨-, -, rfl⟩ := eq_of_overlap split split' (by omega) (by omega)
  simp [assignKind] at other

/-- With an equals sign put in at the end of the line, the value is missed. -/
lemma diagnose_insert_assign (schema : Schema) {chars : List Char} {ls ms : List Lexeme}
    (whole : lexemes .fresh text.toList = ls ++ ⟨some .keyName, chars⟩ :: ms)
    (lineOver : ∀ t ∈ (tokens (Text.bytes (charsOf ls) + Text.bytes chars) ms).head?,
      t.kind = .lineBreak ∨ t.kind = .comment) :
    diagnose schema (scan ((TextEdit.insertion (Text.bytes (charsOf ls) + Text.bytes chars) "=").apply text)) =
      remarks schema none none (tokens 0 ls ++ [keyToken (Text.bytes (charsOf ls)) chars]) ++
        .error (((tokens (Text.bytes (charsOf ls) + Text.bytes chars) ms).head?.map (·.span.shift 1)).getD
          (.point (Text.bytes text.toList + 1))) .valueMissing ::
        (further schema (Text.bytes text.toList) none
          (tokens (Text.bytes (charsOf ls) + Text.bytes chars) ms)).map
          (·.relocate (makeRoom (Text.bytes (charsOf ls) + Text.bytes chars))) := by
  obtain ⟨cut, resumed, -⟩ := lexemes_insert_assign whole
  have fixed := tokens_insert_assign whole
  have size : Text.bytes text.toList =
      Text.bytes (charsOf ls) + Text.bytes chars + Text.bytes (charsOf ms) := by
    rw [cut, Text.bytes_append, Text.bytes_append]
  have size' := bytes_apply_insertion cut "="
  rw [Text.bytes_append, show Text.bytes "=".toList = 1 from rfl] at size'
  generalize Text.bytes (charsOf ls) + Text.bytes chars = p at *
  have same : lexemes ⟨false, true⟩ (charsOf ms) = ms := by
    refine (lexemes_of_lineOver ?_).trans resumed
    rw [resumed, ← map_kind_tokens p, List.head?_map]
    simpa using lineOver
  have lineOver' : ∀ t ∈ (tokens (p + 1) ms).head?, t.kind = .lineBreak ∨ t.kind = .comment := by
    rw [tokens_add, List.head?_map]
    simpa [Token.relocate] using lineOver
  have behind := further_makeRoom schema p (resumed.symm ▸ lineOver)
  rw [resumed, ← size] at behind
  rw [diagnose_scan, fixed, same, size', lint_assigned schema _ rfl rfl,
    lint_valueMissing schema _ rfl rfl lineOver', behind, tokens_add, List.head?_map, Option.map_map]
  rfl

/-- The fix of a missing equals sign settles this error, leaves other lines alone, and asks for the value next
where nothing is left of the line. -/
theorem diagnose_fix_assign {before after : List Diagnostic} {d : Diagnostic}
    (found : diagnose schema (scan text) = before ++ d :: after) (kind : d.message = .assignMissing) :
    ∃ fix nodes key rest, d.fixes = [fix] ∧ (scan text).content = nodes ++ key :: rest ∧
      key.kind = .keyName ∧ d.span = .point key.span.stop ∧
      (∀ e ∈ diagnose schema (scan (fix.apply text)),
        e.message = .assignMissing → e.span.start ≠ key.span.stop) ∧
      (∀ a b : String, text = a ++ "\n" ++ b →
        (Text.bytes a.toList < key.span.stop →
          (diagnose schema (scan (fix.apply text))).filter (·.span.start ≤ Text.bytes a.toList) =
            (diagnose schema (scan text)).filter (·.span.start ≤ Text.bytes a.toList)) ∧
        (key.span.stop ≤ Text.bytes a.toList →
          (diagnose schema (scan (fix.apply text))).filter (Text.bytes a.toList + 1 < ·.span.start) =
            ((diagnose schema (scan text)).filter (Text.bytes a.toList < ·.span.start)).map
              (·.relocate (· + 1)))) ∧
      ((∀ next ∈ rest.head?, next.kind = .lineBreak ∨ next.kind = .comment) →
        diagnose schema (scan (fix.apply text)) =
          before.map (·.relocate (makeRoom key.span.stop)) ++
            .error ((rest.head?.map (·.span.shift 1)).getD (.point (scan (fix.apply text)).size))
              .valueMissing ::
            after.map (·.relocate (makeRoom key.span.stop))) := by
  obtain ⟨ls, chars, ms, older?, whole, rfl, rfl, rfl⟩ := scan_missingAssign found kind
  obtain ⟨cut, -, -⟩ := lexemes_insert_assign whole
  refine ⟨⟨.fix, .insertion (Text.bytes (charsOf ls) + Text.bytes chars) "="⟩, (tokens 0 ls).map Token.node,
    (keyToken (Text.bytes (charsOf ls)) chars).node,
    (tokens (Text.bytes (charsOf ls) + Text.bytes chars) ms).map Token.node, rfl, ?_, rfl, rfl, ?_, ?_, ?_⟩
  · rw [content_scan, whole, tokens_append, tokens_kind, Nat.zero_add]
    simp [keyToken]
  · exact stop_ne_of_assigned (tokens_insert_assign whole) rfl rfl
  · intro a b line
    have cut' : text.toList = a.toList ++ '\n' :: b.toList := by rw [line]; simp
    have others := diagnose_insertion_otherLines schema cut "=" cut'
    rw [Text.bytes_append] at others
    exact others
  · intro lineOver
    have lineOver : ∀ t ∈ (tokens (Text.bytes (charsOf ls) + Text.bytes chars) ms).head?,
        t.kind = .lineBreak ∨ t.kind = .comment := by
      rw [List.head?_map] at lineOver
      simpa [Token.node] using lineOver
    have size : (scan ((TextEdit.insertion (Text.bytes (charsOf ls) + Text.bytes chars) "=").apply
        text)).size = Text.bytes text.toList + 1 := by
      have size := bytes_apply_insertion cut "="
      rw [Text.bytes_append] at size
      exact size
    have stop : (keyToken (Text.bytes (charsOf ls)) chars).node.span.stop =
        Text.bytes (charsOf ls) + Text.bytes chars := rfl
    rw [Fix.apply, size, stop, findings_head_lineOver schema lineOver, further_lineOver schema _ _ lineOver,
      remarks_keyed, List.nil_append, diagnose_insert_assign schema whole lineOver, List.head?_map,
      Option.map_map]
    rfl

/-- Between two broken lines, a sign is put in before a comment. -/
theorem diagnose_fix_assign_comment :
    diagnose .empty (scan "a\nk # c\nb") =
        [.warning ⟨0, 1⟩ .keyUnknown, missingAssign 1, .warning ⟨2, 3⟩ .keyUnknown] ++
          missingAssign 3 :: [.warning ⟨8, 9⟩ .keyUnknown, missingAssign 9] ∧
      ∃ fix, (missingAssign 3).fixes = [fix] ∧
        diagnose .empty (scan (fix.apply "a\nk # c\nb")) =
          [.warning ⟨0, 1⟩ .keyUnknown, missingAssign 1, .warning ⟨2, 3⟩ .keyUnknown,
            .error ⟨5, 8⟩ .valueMissing, .warning ⟨9, 10⟩ .keyUnknown, missingAssign 10] := by
  refine (fun found => ⟨found, ?_⟩) (by rw [scan_eq_within]; decide +kernel)
  have content : (scan "a\nk # c\nb").content =
      [⟨.keyName, ⟨0, 1⟩, []⟩, ⟨.lineBreak, ⟨1, 2⟩, []⟩] ++ ⟨.keyName, ⟨2, 3⟩, []⟩ ::
        [⟨.comment, ⟨4, 7⟩, []⟩, ⟨.lineBreak, ⟨7, 8⟩, []⟩, ⟨.keyName, ⟨8, 9⟩, []⟩] := by
    rw [scan_eq_within]
    rfl
  obtain ⟨fix, nodes, key, rest, fixes, split, keyKind, place, -, -, next⟩ := diagnose_fix_assign found rfl
  have stop : key.span.stop = 3 := (congrArg Span.stop place).symm
  obtain ⟨rfl, rfl, rfl⟩ := node_of_stop split content (by rw [keyKind]; rfl) rfl stop
  refine ⟨fix, fixes, ?_⟩
  rw [next (by simp), List.head?_cons, Option.map_some, Option.getD_some]
  decide +kernel

end Scanned

end Keyfile
