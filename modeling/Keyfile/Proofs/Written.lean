import Keyfile.Proofs.Words
import Keyfile.Text.Pieces

/-! Documents as they are written: lines with a container, an assignment, a comment or nothing, and any
blanks around the parts of a line. Such a document is scanned back to what was written, and nothing is
missed in it. -/
namespace Keyfile
open Adjacency

namespace Written

/-- Blanks between the parts of a line. -/
structure Gap where
  chars : List Char
  skipped : ∀ c ∈ chars, isGap c = true

/-- A dotted name of a container or a key. -/
structure Name where
  chars : List Char
  nonempty : chars ≠ []
  named : ∀ c ∈ chars, isNameChar c = true

/-- A value without quotes. It stays on its line and before a comment, and has no blanks at its ends. -/
structure Bare where
  chars : List Char
  nonempty : chars ≠ []
  plain : ∀ c ∈ chars, isValueChar c = true
  unquoted : chars.head? ≠ some '"'
  first_solid : ∀ c ∈ chars.head?, Text.isBlank c = false
  last_solid : ∀ c ∈ chars.getLast?, Text.isBlank c = false

/-- Whether a text can stand between quotes: on one line, with a backslash before every quote and before
every backslash that does not escape another character. -/
def isQuotable : List Char → Bool
  | [] => true
  | '\\' :: c :: cs => c != '\n' && isQuotable cs
  | c :: cs => c != '\\' && c != '"' && c != '\n' && isQuotable cs

inductive Value where
  | bare (value : Bare)
  | quoted (content : List Char) (quotable : isQuotable content = true)

def Value.chars : Value → List Char
  | .bare value => value.chars
  | .quoted content _ => '"' :: (content ++ ['"'])

def Value.kind : Value → Kind
  | .bare value => valueKind value.chars
  | .quoted _ _ => .string

structure Comment where
  mark : Char
  chars : List Char
  marked : isCommentMark mark = true
  oneLine : '\n' ∉ chars

/-- A line with the blanks at its start, between its parts and at its end. A comment takes the blanks at
its end in. -/
inductive Line where
  | container (lead inner : Gap) (name : Name) (outer trail : Gap)
  | assignment (lead : Gap) (key : Name) (outer inner : Gap) (value : Value) (trail : Gap)
  | comment (lead : Gap) (text : Comment)
  | blank (lead : Gap)

namespace Line

/-- The text of a line. -/
def chars : Line → List Char
  | container lead inner name outer trail =>
    lead.chars ++ '[' :: (inner.chars ++ (name.chars ++ (outer.chars ++ ']' :: trail.chars)))
  | assignment lead key outer inner value trail =>
    lead.chars ++ (key.chars ++ (outer.chars ++ '=' :: (inner.chars ++ (value.chars ++ trail.chars))))
  | comment lead text => lead.chars ++ text.mark :: text.chars
  | blank lead => lead.chars

/-- What a line says: the kinds and texts of its parts. -/
def words : Line → List (Kind × String)
  | container _ _ name _ _ =>
    [(.containerStart, "["), (.containerName, String.ofList name.chars), (.containerEnd, "]")]
  | assignment _ key _ _ value _ =>
    [(.keyName, String.ofList key.chars), (.assign, "="), (value.kind, String.ofList value.chars)]
  | comment _ text => [(.comment, String.ofList (text.mark :: text.chars))]
  | blank _ => []

end Line

/-- The text of a document: its lines with line breaks between them. -/
def render (lines : List Line) : String := String.ofList (Text.joined '\n' (lines.map Line.chars))

/-- What a document says. -/
def words (lines : List Line) : List (Kind × String) :=
  List.intercalate [(.lineBreak, "\n")] (lines.map Line.words)

section Reading

lemma quotedTail_of_isQuotable {content : List Char} (h : isQuotable content = true) (rest : List Char) :
    quotedTail false (content ++ '"' :: rest) = content ++ ['"'] := by
  fun_induction isQuotable content with
  | case1 => rfl
  | case2 c cs ih =>
    -- the backslash takes the meaning of the next character, which is no line break
    simp only [Bool.and_eq_true, bne_iff_ne, ne_eq] at h
    simp [quotedTail, h.1, ih h.2]
  | case3 c cs _ ih =>
    simp only [Bool.and_eq_true, bne_iff_ne, ne_eq] at h
    obtain ⟨⟨⟨backslash, quote⟩, newline⟩, quotable⟩ := h
    simp [quotedTail, newline, quote, beq_false_of_ne backslash, ih quotable]

lemma starts_value (value : Value) (inContainer : Bool) (trail : Gap) :
    Starts ⟨inContainer, true⟩ ⟨some value.kind, value.chars⟩ trail.chars := by
  cases value with
  | bare value =>
    obtain ⟨chars, nonempty, plain, unquoted, first, last⟩ := value
    obtain ⟨c, cs, rfl⟩ := List.exists_cons_of_ne_nil nonempty
    have all : ∀ x ∈ (c :: cs) ++ trail.chars, isValueChar x = true := by
      intro x hx
      rcases List.mem_append.mp hx with hx | hx
      · exact plain x hx
      · exact isValueChar_of_isGap (trail.skipped x hx)
    have whole : ((c :: cs) ++ trail.chars).takeWhile isValueChar = (c :: cs) ++ trail.chars :=
      List.takeWhile_eq_self_iff.mpr all
    have trimmed : Text.trimEnd ((c :: cs) ++ trail.chars) = c :: cs := by
      rw [Text.trimEnd_append_of_blank _ fun x hx => isBlank_of_isGap (trail.skipped x hx),
        Text.trimEnd_of_solid last]
    have quote : c ≠ '"' := by simpa using unquoted
    have unskipped : isGap c = false := by
      by_contra gap
      have solid := first c rfl
      rw [isBlank_of_isGap (by simpa using gap)] at solid
      cases solid
    refine ⟨c, cs ++ trail.chars, rfl, ?_⟩
    rw [role_value (plain c (by simp)) unskipped, Role.lexeme, valueLexeme_unquoted quote,
      ← List.cons_append, whole, trimmed]
    rfl
  | quoted content quotable =>
    refine ⟨'"', content ++ '"' :: trail.chars, by simp [Value.chars], ?_⟩
    rw [show role true '"' = .value from rfl, Role.lexeme, valueLexeme,
      quotedTail_of_isQuotable quotable]
    rfl

/-- A name ends where blanks or a sign follow it. -/
lemma stop_of_gap (gap : Gap) {c : Char} (sign : isNameChar c = false) (rest : List Char) :
    ∀ x ∈ (gap.chars ++ c :: rest).head?, isNameChar x = false := by
  intro x hx
  cases chars : gap.chars with
  | nil =>
    rw [chars] at hx
    simp at hx
    rw [← hx, sign]
  | cons g gaps =>
    rw [chars] at hx
    simp at hx
    rw [← hx]
    exact isNameChar_of_isGap (gap.skipped g (by simp [chars]))

lemma wordsFrom_name (name : Name) (inContainer : Bool) (gap : Gap) {c : Char} (sign : isNameChar c = false)
    (rest : List Char) :
    wordsFrom ⟨inContainer, false⟩ (name.chars ++ (gap.chars ++ c :: rest)) =
      (if inContainer then .containerName else .keyName, String.ofList name.chars) ::
        wordsFrom ⟨inContainer, false⟩ (c :: rest) := by
  have starts :=
    starts_name (s := ⟨inContainer, false⟩) rfl name.nonempty name.named (stop_of_gap gap sign rest)
  have state : LineState.after ⟨inContainer, false⟩ (some (LineState.nameKind ⟨inContainer, false⟩)) =
      ⟨inContainer, false⟩ := by cases inContainer <;> rfl
  rw [wordsFrom_of_starts starts, state, wordsFrom_gaps _ gap.skipped]
  rfl

lemma wordsFrom_sign {s : LineState} {kind : Kind} {c : Char} {rest : List Char}
    (h : Starts s ⟨some kind, [c]⟩ rest) :
    wordsFrom s (c :: rest) = (kind, String.ofList [c]) :: wordsFrom (s.after (some kind)) rest :=
  wordsFrom_of_starts h

lemma wordsFrom_trail (s : LineState) (trail : Gap) : wordsFrom s trail.chars = [] := by
  rw [← List.append_nil trail.chars, wordsFrom_gaps s trail.skipped, wordsFrom_nil]

lemma starts_comment (s : LineState) (text : Comment) :
    Starts s ⟨some .comment, text.mark :: text.chars⟩ [] := by
  obtain ⟨mark, chars, marked, oneLine⟩ := text
  have comment : role s.afterAssign mark = .comment ∧ mark ≠ '\n' := by
    simp only [isCommentMark, Bool.or_eq_true, beq_iff_eq] at marked
    rcases marked with rfl | rfl <;> exact ⟨rfl, by decide⟩
  have whole : (mark :: chars).takeWhile (· != '\n') = mark :: chars := by
    rw [List.takeWhile_eq_self_iff]
    intro x hx
    rcases List.mem_cons.mp hx with rfl | hx
    · simpa using comment.2
    · simpa using ne_of_mem_of_not_mem hx oneLine
  refine ⟨mark, chars, by simp, ?_⟩
  rw [comment.1, Role.lexeme, whole]

/-- A line is read as what it says. -/
theorem wordsFrom_line (line : Line) : wordsFrom .fresh line.chars = line.words := by
  cases line with
  | container lead inner name outer trail =>
    have opened : ∀ rest, Starts .fresh ⟨some .containerStart, ['[']⟩ rest := fun rest => ⟨'[', rest, rfl, rfl⟩
    have closed : ∀ rest, Starts ⟨true, false⟩ ⟨some .containerEnd, [']']⟩ rest :=
      fun rest => ⟨']', rest, rfl, rfl⟩
    have sign : isNameChar ']' = false := by decide +kernel
    calc wordsFrom .fresh (Line.container lead inner name outer trail).chars
        = (.containerStart, "[") :: wordsFrom ⟨true, false⟩
            (name.chars ++ (outer.chars ++ ']' :: trail.chars)) := by
          rw [Line.chars, wordsFrom_gaps _ lead.skipped, wordsFrom_sign (opened _)]
          exact congrArg _ (wordsFrom_gaps _ inner.skipped _)
      _ = (.containerStart, "[") :: (.containerName, String.ofList name.chars) ::
            wordsFrom ⟨true, false⟩ (']' :: trail.chars) := by rw [wordsFrom_name name true outer sign]; rfl
      _ = (Line.container lead inner name outer trail).words := by
          rw [wordsFrom_sign (closed _), wordsFrom_trail]
          rfl
  | assignment lead key outer inner value trail =>
    have assigned : ∀ rest, Starts .fresh ⟨some .assign, ['=']⟩ rest := fun rest => ⟨'=', rest, rfl, rfl⟩
    have sign : isNameChar '=' = false := by decide +kernel
    calc wordsFrom .fresh (Line.assignment lead key outer inner value trail).chars
        = (.keyName, String.ofList key.chars) ::
            wordsFrom .fresh ('=' :: (inner.chars ++ (value.chars ++ trail.chars))) := by
          rw [Line.chars, wordsFrom_gaps _ lead.skipped]
          exact wordsFrom_name key false outer sign _
      _ = (.keyName, String.ofList key.chars) :: (.assign, "=") ::
            wordsFrom ⟨false, true⟩ (value.chars ++ trail.chars) := by
          rw [wordsFrom_sign (assigned _)]
          exact congrArg (fun ws => _ :: _ :: ws) (wordsFrom_gaps _ inner.skipped _)
      _ = (Line.assignment lead key outer inner value trail).words := by
          rw [wordsFrom_of_starts (starts_value value false trail), wordsFrom_trail]
          rfl
  | comment lead text =>
    have whole := wordsFrom_of_starts (starts_comment .fresh text)
    rw [List.append_nil, wordsFrom_nil] at whole
    rw [Line.chars, wordsFrom_gaps _ lead.skipped, whole]
    rfl
  | blank lead => exact wordsFrom_trail _ lead

lemma words_cons_cons (l l' : Line) (lines : List Line) :
    words (l :: l' :: lines) = l.words ++ (.lineBreak, "\n") :: words (l' :: lines) := by
  simp [words, List.intercalate_cons_cons]

lemma words_scan_render (lines : List Line) : (scan (render lines)).words = words lines := by
  rw [words_scan, render, String.toList_ofList]
  induction lines with
  | nil => exact wordsFrom_nil _
  | cons l lines ih =>
    cases lines with
    | nil => simpa [Text.joined, words] using wordsFrom_line l
    | cons l' lines =>
      rw [List.map_cons, List.map_cons, Text.joined_cons_cons, ← List.map_cons, wordsFrom_append_lineBreak,
        wordsFrom_line, ih, words_cons_cons]

end Reading

section Report
variable (schema : Schema)

lemma kind_mem_literals (value : Value) : value.kind ∈ Kind.literals := by
  cases value with
  | bare value => exact valueKind_mem_literals _
  | quoted content quotable => exact List.mem_cons_self

/-- Behind a line nothing is waited for. -/
lemma lint_line (line : Line) (ts : List Token) :
    lint schema 0 none none (line.words.map wordToken ++ ts) =
      remarks schema none none (line.words.map wordToken) ++ lint schema 0 none none ts := by
  apply lint_append_of_settled
  cases line with
  | assignment lead key outer inner value trail =>
    have literal := kind_mem_literals value
    simp only [Kind.literals, List.mem_cons, List.not_mem_nil, or_false] at literal
    change awaiting (some .assign) (some value.kind) = none
    rcases literal with kind | kind | kind <;> rw [kind] <;> rfl
  | _ => rfl

lemma remark_unbroken {older? last? : Option Token} {token : Token} {d : Diagnostic}
    (unbroken : ∀ last ∈ last?, interruption (older?.map (·.kind)) last (some token.kind) token.span = [])
    (h : d ∈ remark schema older? last? token) : d.message.isStructural = false := by
  rw [remark_eq] at h
  rcases List.mem_append.mp h with h | h
  · cases last? with
    | none => cases h
    | some last =>
      rw [Option.map_some, Option.getD_some, unbroken last rfl] at h
      cases h
  · exact findings_message schema h

/-- No part of a line is missed. -/
lemma remarks_line (line : Line) {d : Diagnostic}
    (h : d ∈ remarks schema none none (line.words.map wordToken)) : d.message.isStructural = false := by
  cases line with
  | container lead inner name outer trail =>
    simp only [Line.words, List.map_cons, List.map_nil, remarks, List.append_nil, List.mem_append] at h
    rcases h with h | h | h
    · exact remark_unbroken schema (by simp) h
    · exact remark_unbroken schema (by simp [interruption, wordToken]) h
    · exact remark_unbroken schema (by simp [interruption, wordToken]) h
  | assignment lead key outer inner value trail =>
    have literal : value.kind.isLiteral = true := by simpa [Kind.isLiteral] using kind_mem_literals value
    simp only [Line.words, List.map_cons, List.map_nil, remarks, List.append_nil, List.mem_append] at h
    rcases h with h | h | h
    · exact remark_unbroken schema (by simp) h
    · exact remark_unbroken schema (by simp [interruption, wordToken]) h
    · exact remark_unbroken schema (by simp [interruption, wordToken, literal]) h
  | comment lead text =>
    simp only [Line.words, List.map_cons, List.map_nil, remarks, List.append_nil] at h
    exact remark_unbroken schema (by simp) h
  | blank lead => cases h

lemma lint_words (lines : List Line) {d : Diagnostic}
    (h : d ∈ lint schema 0 none none ((words lines).map wordToken)) : d.message.isStructural = false := by
  induction lines with
  | nil => simp [words, closing_eq] at h
  | cons l lines ih =>
    cases lines with
    | nil =>
      have alone : (words [l]).map wordToken = l.words.map wordToken ++ [] := by simp [words]
      rw [alone, lint_line, lint_nil, closing_eq] at h
      exact remarks_line schema l (by simpa using h)
    | cons l' lines =>
      rw [words_cons_cons, List.map_append, lint_line] at h
      rcases List.mem_append.mp h with h | h
      · exact remarks_line schema l h
      · -- the line break says nothing, and what follows it is read as from the start
        rw [List.map_cons, lint_cons, lint_settled schema 0 rfl] at h
        exact ih (by simpa [remark_eq, findings, wordToken, Kind.isLiteral, Kind.literals] using h)

end Report

/-- A written document is scanned back to what was written, and no part of it is missed. -/
theorem scan_render (lines : List Line) :
    (scan (render lines)).words = words lines ∧
      ∀ schema, ∀ d ∈ diagnose schema (scan (render lines)),
        d.message ≠ .containerNameMissing ∧ d.message ≠ .containerEndMissing ∧
          d.message ≠ .assignMissing ∧ d.message ≠ .valueMissing := by
  refine ⟨words_scan_render lines, ?_⟩
  intro schema d hd
  have worded : d.wording ∈ (diagnose schema (scan (render lines))).map Diagnostic.wording :=
    List.mem_map_of_mem hd
  rw [wording_diagnose, words_scan_render] at worded
  obtain ⟨e, he, same⟩ := List.mem_map.mp worded
  have message : e.message = d.message := congrArg Prod.snd same
  have complete := lint_words schema lines he
  rw [message] at complete
  refine ⟨?_, ?_, ?_, ?_⟩ <;> intro missing <;> rw [missing] at complete <;> cases complete

example :
    render [.container ⟨[], by simp⟩ ⟨[' '], List.all_eq_true.mp rfl⟩
        ⟨['a'], by simp, List.all_eq_true.mp rfl⟩ ⟨[], by simp⟩ ⟨[], by simp⟩,
      .assignment ⟨[], by simp⟩ ⟨['7', '.', 'k'], by simp, List.all_eq_true.mp rfl⟩ ⟨[], by simp⟩
        ⟨['\t'], List.all_eq_true.mp rfl⟩ (.quoted ['#', '\\', '"'] rfl) ⟨[], by simp⟩] =
      "[ a]\n7.k=\t\"#\\\"\"" := rfl

end Written

end Keyfile
