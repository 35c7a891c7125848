import Keyfile.Proofs.Lines
import Keyfile.Proofs.ReportOrder

/-! Texts with something put in. A name stays a name if what comes behind it cannot belong to it; what the
scanner remembers of a line does not matter once the line is over; and other lines are not reached. -/
namespace Keyfile
open Adjacency

section Names

lemma state_of_name {s : LineState} {kind : Kind} (ready : s.afterAssign = false)
    (named : some kind = some s.nameKind) : s = ⟨kind == .containerName, false⟩ := by
  obtain ⟨inContainer, afterAssign⟩ := s
  obtain rfl : afterAssign = false := ready
  obtain rfl := Option.some.inj named
  cases inContainer <;> rfl

/-- Behind a name the text can be changed, as long as the name ends there. -/
lemma lexemes_behind_name {s : LineState} {cs chars : List Char} {ls ms : List Lexeme} {kind : Kind}
    (h : lexemes s cs = ls ++ ⟨some kind, chars⟩ :: ms) (name : kind = .containerName ∨ kind = .keyName) :
    cs = (charsOf ls ++ chars) ++ charsOf ms ∧
      lexemes ⟨kind == .containerName, false⟩ (charsOf ms) = ms ∧
      ∀ rest, (∀ x ∈ rest.head?, isNameChar x = false) →
        lexemes s ((charsOf ls ++ chars) ++ rest) =
          ls ++ ⟨some kind, chars⟩ :: lexemes ⟨kind == .containerName, false⟩ rest := by
  obtain ⟨text, resumed⟩ := lexemes_eq_append h
  obtain ⟨_, below, starts, tail⟩ := lexemes_eq_cons resumed
  obtain rfl : charsOf ms = _ := List.append_cancel_left below
  obtain ⟨ready, named, nonempty, names, -⟩ := starts.of_name (by simpa using name)
  have state := state_of_name ready named
  have same : (s.afterAll ls).after (some kind) = s.afterAll ls := by
    rcases name with rfl | rfl <;> rfl
  rw [same, state] at tail
  have solid : ∃ x ∈ chars, isSolid x = true := by
    obtain ⟨c, rest, rfl⟩ := List.exists_cons_of_ne_nil nonempty
    refine ⟨c, by simp, ?_⟩
    simp [isSolid, isBlank_of_isNameChar (names c (by simp))]
  refine ⟨by rw [text]; simp, tail.symm, ?_⟩
  intro rest stop
  have ends : Starts (s.afterAll ls) ⟨some kind, chars⟩ rest := by
    have named : some kind = some (s.afterAll ls).nameKind := named
    rw [named]
    exact starts_name ready nonempty names stop
  rw [List.append_assoc, lexemes_append_of_last h solid ends, same, state]

end Names

section LineOver

lemma role_of_neutral {afterAssign : Bool} {c : Char} {r : Role} (h : role afterAssign c = r)
    (neutral : r = .lineBreak ∨ r = .gap ∨ r = .comment) (afterAssign' : Bool) : role afterAssign' c = r := by
  unfold role at h ⊢
  split_ifs at h with newline gap mark <;> subst h
  · rw [if_pos newline]
  · rw [if_neg newline, if_pos gap]
  · rw [if_neg newline, if_neg gap, if_pos mark]
  all_goals simp at neutral

/-- Line breaks, gaps and comments are read in the same way everywhere. -/
lemma Starts.of_neutral {s : LineState} {l : Lexeme} {rest : List Char} (h : Starts s l rest)
    (neutral : l.kind? = some .lineBreak ∨ l.kind? = none ∨ l.kind? = some .comment) (s' : LineState) :
    Starts s' l rest := by
  obtain ⟨c, cs, text, hr, first⟩ := h.inversion
  refine ⟨c, cs, text, ?_⟩
  rcases neutral with kind | kind | kind <;> rw [kind] at hr first <;>
    rw [role_of_neutral hr (by simp [Role.ofKind])] <;> exact first

/-- Where the line is over, it does not matter what was remembered of it. -/
lemma lexemes_of_lineOver {s s' : LineState} {cs : List Char}
    (lineOver : ∀ kind ∈ ((lexemes s cs).filterMap (·.kind?)).head?, kind = .lineBreak ∨ kind = .comment) :
    lexemes s' cs = lexemes s cs := by
  generalize h : lexemes s cs = ls at lineOver
  induction ls generalizing cs with
  | nil =>
    have empty : cs = [] := by rw [← charsOf_lexemes s cs, h]; rfl
    subst empty
    simp [lexemes]
  | cons l ls ih =>
    obtain ⟨rest, rfl, starts, tail⟩ := lexemes_eq_cons h
    obtain ⟨kind?, chars⟩ := l
    cases kind? with
    | none =>
      rw [lexemes_of_starts (starts.of_neutral (.inr (.inl rfl)) s')]
      exact congrArg (List.cons _) (ih tail.symm lineOver)
    | some kind =>
      rcases lineOver kind rfl with rfl | rfl
      · rw [lexemes_of_starts (starts.of_neutral (.inl rfl) s'), tail]
        rfl
      · -- a comment is followed by a line break or by nothing
        have below := starts.of_comment rfl
        have same : lexemes s' rest = lexemes s rest := by
          cases rest with
          | nil => simp [lexemes]
          | cons x rest => rw [below x rfl, lexemes_lineBreak, lexemes_lineBreak]
        rw [lexemes_of_starts (starts.of_neutral (.inr (.inr rfl)) s'), tail]
        exact congrArg (List.cons _) same

variable (schema : Schema) {t : Token}

lemma findings_lineOver (lineOver : t.kind = .lineBreak ∨ t.kind = .comment) {older? last? : Option Kind}
    {key? : Option Token} : findings schema older? last? t key? = [] := by
  rcases lineOver with kind | kind <;> simp [findings, kind, Kind.isLiteral, Kind.literals]

lemma lint_lineOver (size : Nat) (last? : Option Token) (lineOver : t.kind = .lineBreak ∨ t.kind = .comment)
    (ts : List Token) : lint schema size last? (some t) ts = lint schema size none none ts := by
  apply lint_settled
  rcases lineOver with kind | kind <;> rw [Option.map_some, kind] <;> rfl

lemma findings_head_lineOver {ts : List Token}
    (lineOver : ∀ t ∈ ts.head?, t.kind = .lineBreak ∨ t.kind = .comment) (older? last? : Option Kind)
    (key? : Option Token) :
    (ts.head?.map fun token => findings schema older? last? token key?).getD [] = [] := by
  cases ts with
  | nil => rfl
  | cons t ts => exact findings_lineOver schema (lineOver t rfl)

lemma further_lineOver (size : Nat) (last? : Option Token) {ts : List Token}
    (lineOver : ∀ t ∈ ts.head?, t.kind = .lineBreak ∨ t.kind = .comment) :
    further schema size last? ts = further schema size none ts := by
  cases ts with
  | nil => rfl
  | cons t ts =>
    rw [further, further, lint_lineOver schema size last? (lineOver t rfl),
      lint_lineOver schema size none (lineOver t rfl)]

end LineOver

/-- Places with room for one more byte at `p`: those behind it move on. -/
def makeRoom (p q : Nat) : Nat := if p < q then q + 1 else q

lemma makeRoom_of_lt {p q : Nat} (h : p < q) : makeRoom p q = q + 1 := if_pos h

lemma makeRoom_of_le {p q : Nat} (h : q ≤ p) : makeRoom p q = q := if_neg (by omega)

section Room
variable (schema : Schema) (size : Nat)

lemma remarks_makeRoom (ls : List Lexeme) :
    (remarks schema none none (tokens 0 ls)).map (·.relocate (makeRoom (Text.bytes (charsOf ls)))) =
      remarks schema none none (tokens 0 ls) := by
  have same : (tokens 0 ls).map (·.relocate (makeRoom (Text.bytes (charsOf ls)))) =
      (tokens 0 ls).map (·.relocate id) := by
    apply map_relocate_congr
    intro t ht
    have bounds := tokens_bounds ht
    exact ⟨makeRoom_of_le (by omega), makeRoom_of_le (by omega)⟩
  rw [← remarks_relocate, same]
  exact congrArg (remarks schema none none) (List.map_id _)

lemma lint_makeRoom {p : Nat} {ts : List Token} (inside : p < size)
    (h : ∀ t ∈ ts, p < t.span.start ∧ p < t.span.stop) :
    lint schema (size + 1) none none (ts.map (·.relocate (· + 1))) =
      (lint schema size none none ts).map (·.relocate (makeRoom p)) := by
  have same : ts.map (·.relocate (makeRoom p)) = ts.map (·.relocate (· + 1)) :=
    map_relocate_congr fun t ht => ⟨makeRoom_of_lt (h t ht).1, makeRoom_of_lt (h t ht).2⟩
  rw [← lint_relocate, same, makeRoom_of_lt inside]
  rfl

/-- Where the line is over, what is said behind the next token only moves. -/
lemma further_makeRoom (p : Nat) {s : LineState} {cs : List Char}
    (lineOver : ∀ t ∈ (tokens p (lexemes s cs)).head?, t.kind = .lineBreak ∨ t.kind = .comment) :
    further schema (p + Text.bytes cs + 1) none (tokens (p + 1) (lexemes s cs)) =
      (further schema (p + Text.bytes cs) none (tokens p (lexemes s cs))).map (·.relocate (makeRoom p)) := by
  rw [tokens_add]
  generalize h : tokens p (lexemes s cs) = ts at lineOver
  cases ts with
  | nil => rfl
  | cons t ts =>
    have member : t ∈ tokens p (lexemes s cs) := by rw [h]; simp
    have bounds := tokens_bounds member
    rw [charsOf_lexemes] at bounds
    have nonempty : t.span.start < t.span.stop := by
      apply start_lt_stop member
      rcases lineOver t rfl with kind | kind <;> rw [kind] <;> decide
    have behind : ∀ u ∈ ts, p < u.span.start ∧ p < u.span.stop := by
      intro u hu
      have later := stop_le_start (show _ = [] ++ t :: ts from h) hu
      have ordered := tokens_bounds (show u ∈ tokens p (lexemes s cs) by rw [h]; simp [hu])
      omega
    have lineOver' : (t.relocate (· + 1)).kind = .lineBreak ∨ (t.relocate (· + 1)).kind = .comment :=
      lineOver t rfl
    rw [List.map_cons, further, further, lint_lineOver schema _ none lineOver',
      lint_lineOver schema _ none (lineOver t rfl), lint_makeRoom schema _ (by omega) behind]

end Room

section OtherLines
variable (schema : Schema) {text : String} {a b : List Char}

lemma start_le_of_mem_remarks {older? last? : Option Token} {ts : List Token} {e : Diagnostic} {cs : List Char}
    (placed : Placed cs (inView older? last? ts)) (h : e ∈ remarks schema older? last? ts) :
    ∃ t ∈ ts, e.span.start ≤ t.span.start := by
  induction ts generalizing older? last? with
  | nil => cases h
  | cons t ts ih =>
    rcases List.mem_append.mp h with h | h
    · exact ⟨t, by simp, (remark_bounds schema placed h).2.trans (reportedUpTo_le placed.step)⟩
    · obtain ⟨u, hu, le⟩ := ih placed.step h
      exact ⟨u, by simp [hu], le⟩

/-- What is said up to a line break, and what is said behind it. -/
lemma diagnose_filter_lineBreak (line : text.toList = a ++ '\n' :: b) :
    (diagnose schema (scan text)).filter (·.span.start ≤ Text.bytes a) =
        remarks schema none none (tokens 0 (lexemes .fresh a) ++ [lineBreakToken (Text.bytes a)]) ∧
      (diagnose schema (scan text)).filter (Text.bytes a < ·.span.start) =
        lint schema (Text.bytes text.toList) none none (tokens (Text.bytes a + 1) (lexemes .fresh b)) := by
  have split : diagnose schema (scan text) =
      remarks schema none none (tokens 0 (lexemes .fresh a) ++ [lineBreakToken (Text.bytes a)]) ++
        lint schema (Text.bytes text.toList) none none (tokens (Text.bytes a + 1) (lexemes .fresh b)) := by
    rw [diagnose_scan, line, tokens_append_lineBreak, lint_append_lineBreak, ← tokens_add, Nat.zero_add]
  have upper : ∀ e ∈ remarks schema none none
      (tokens 0 (lexemes .fresh a) ++ [lineBreakToken (Text.bytes a)]), e.span.start ≤ Text.bytes a := by
    intro e he
    have placed := placed_tokens (lexemes .fresh (a ++ '\n' :: []))
    rw [tokens_append_lineBreak, lexemes, tokens_nil, List.map_nil, List.append_nil] at placed
    obtain ⟨t, ht, le⟩ := start_le_of_mem_remarks schema placed he
    rcases List.mem_append.mp ht with ht | ht
    · have bounds := tokens_bounds ht
      rw [charsOf_lexemes] at bounds
      omega
    · rw [List.mem_singleton.mp ht] at le
      exact le
  have lower : ∀ e ∈ lint schema (Text.bytes text.toList) none none
      (tokens (Text.bytes a + 1) (lexemes .fresh b)), Text.bytes a < e.span.start := by
    intro e he
    have size : Text.bytes text.toList = Text.bytes (charsOf (lexemes .fresh b)) + (Text.bytes a + 1) := by
      rw [line, charsOf_lexemes, Text.bytes_append, Text.bytes_cons, show '\n'.utf8Size = 1 from rfl]
      omega
    rw [size] at he
    exact le_start_of_mem_lint he
  rw [split, List.filter_append, List.filter_append]
  refine ⟨?_, ?_⟩
  · rw [List.filter_eq_self.mpr (by simpa using upper), List.filter_eq_nil_iff.mpr (by simpa using lower),
      List.append_nil]
  · rw [List.filter_eq_nil_iff.mpr (by simpa using upper), List.filter_eq_self.mpr (by simpa using lower),
      List.nil_append]

/-- Something put into a text does not reach earlier lines, and only moves later ones. -/
theorem diagnose_insertion_otherLines {front back : List Char} (cut : text.toList = front ++ back)
    (insert : String) (line : text.toList = a ++ '\n' :: b) :
    (Text.bytes a < Text.bytes front →
      (diagnose schema (scan ((TextEdit.insertion (Text.bytes front) insert).apply text))).filter
          (·.span.start ≤ Text.bytes a) =
        (diagnose schema (scan text)).filter (·.span.start ≤ Text.bytes a)) ∧
    (Text.bytes front ≤ Text.bytes a →
      (diagnose schema (scan ((TextEdit.insertion (Text.bytes front) insert).apply text))).filter
          (Text.bytes a + Text.bytes insert.toList < ·.span.start) =
        ((diagnose schema (scan text)).filter (Text.bytes a < ·.span.start)).map
          (·.relocate (· + Text.bytes insert.toList))) := by
  rw [apply_insertion cut]
  refine ⟨?_, ?_⟩
  · intro earlier
    obtain ⟨middle, rfl⟩ := Text.isPrefix_of_bytes_le (line.symm.trans cut) (by omega)
    obtain ⟨rest, rfl⟩ : ∃ rest, middle = '\n' :: rest := by
      rw [line, List.append_assoc, List.append_cancel_left_eq] at cut
      cases middle with
      | nil => simp at earlier
      | cons c rest => exact ⟨rest, by rw [(List.cons.inj cut).1]⟩
    have line' : (String.ofList ((a ++ '\n' :: rest) ++ (insert.toList ++ back))).toList =
        a ++ '\n' :: (rest ++ (insert.toList ++ back)) := by simp
    rw [(diagnose_filter_lineBreak schema line).1, (diagnose_filter_lineBreak schema line').1]
  · intro later
    obtain ⟨middle, rfl⟩ := Text.isPrefix_of_bytes_le (cut.symm.trans line) later
    obtain rfl : back = middle ++ '\n' :: b := by
      rw [cut, List.append_assoc, List.append_cancel_left_eq] at line
      exact line
    have line' : (String.ofList (front ++ (insert.toList ++ (middle ++ '\n' :: b)))).toList =
        (front ++ (insert.toList ++ middle)) ++ '\n' :: b := by simp
    have lower := (diagnose_filter_lineBreak schema line').2
    have moved := lint_relocate schema (Text.bytes text.toList) none none (· + Text.bytes insert.toList)
      (tokens (Text.bytes (front ++ middle) + 1) (lexemes .fresh b))
    have size : Text.bytes (String.ofList (front ++ (insert.toList ++ (middle ++ '\n' :: b)))).toList =
        Text.bytes text.toList + Text.bytes insert.toList := by
      rw [String.toList_ofList, cut]
      simp only [Text.bytes_append]
      omega
    have place : Text.bytes (front ++ (insert.toList ++ middle)) =
        Text.bytes (front ++ middle) + Text.bytes insert.toList := by
      simp only [Text.bytes_append]
      omega
    rw [place] at lower
    rw [lower, (diagnose_filter_lineBreak schema line).2, ← moved, size, ← tokens_add, Nat.add_right_comm]
    rfl

end OtherLines

end Keyfile
