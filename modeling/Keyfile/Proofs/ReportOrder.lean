import Keyfile.Proofs.Lossless

/-! Reports in the order of the text. All that is said points to parts of the text; and a hint on a value,
though it points back to the key, comes in order too, since nothing is said between the two. -/
namespace Keyfile
open Adjacency

/-- Tokens that are parts of a text, one behind the other. -/
structure Placed (text : List Char) (ts : List Token) : Prop where
  within : ∀ t ∈ ts, t.span.Within text
  ordered : ts.Pairwise fun t u => t.span.stop ≤ u.span.start

lemma placed_tokens (ls : List Lexeme) : Placed (charsOf ls) (tokens 0 ls) := by
  refine ⟨?_, tokens_pairwise 0 ls⟩
  intro t ht
  obtain ⟨front, chars, back, split, -, place⟩ := parts_of_mem_tokens ht
  exact Span.within_iff.mpr ⟨front, chars, back, split, place⟩

/-- All tokens that the windows from here on hold. -/
def inView (older? last? : Option Token) (ts : List Token) : List Token :=
  older?.toList ++ (last?.toList ++ ts)

section Places
variable {text : List Char} {older? last? : Option Token} {older last t : Token} {ts : List Token}

lemma Placed.step (h : Placed text (inView older? last? (t :: ts))) : Placed text (inView last? (some t) ts) := by
  obtain ⟨within, ordered⟩ := h
  exact ⟨fun u hu => within u (List.mem_append_right _ hu), (List.pairwise_append.mp ordered).2.1⟩

lemma Placed.last_before (h : Placed text (inView older? (some last) (t :: ts))) :
    last.span.start ≤ last.span.stop ∧ last.span.stop ≤ t.span.start := by
  have apart := (List.pairwise_append.mp h.ordered).2.1
  exact ⟨(h.within last (by simp [inView])).ordered, List.rel_of_pairwise_cons apart List.mem_cons_self⟩

lemma Placed.older_before (h : Placed text (inView (some older) (some last) ts)) :
    older.span.start ≤ older.span.stop ∧ older.span.stop ≤ last.span.start :=
  ⟨(h.within older (by simp [inView])).ordered, List.rel_of_pairwise_cons h.ordered List.mem_cons_self⟩

/-- The place that the report has come to after two tokens. A key with its equals sign holds it back. -/
def reportedUpTo : Option Token → Option Token → Nat
  | _, none => 0
  | none, some last => last.span.start
  | some older, some last =>
    if older.kind = .keyName ∧ last.kind = .assign then older.span.start else last.span.start

lemma reportedUpTo_of_not_key (other : last?.map (·.kind) ≠ some .keyName ∨ t.kind ≠ .assign) :
    reportedUpTo last? (some t) = t.span.start := by
  cases last? with
  | none => rfl
  | some last =>
    rw [reportedUpTo, if_neg]
    rintro ⟨key, assign⟩
    simp [key, assign] at other

lemma reportedUpTo_le (h : Placed text (inView older? (some last) ts)) :
    reportedUpTo older? (some last) ≤ last.span.start := by
  cases older? with
  | none => exact Nat.le_refl _
  | some older =>
    have := h.older_before
    rw [reportedUpTo]
    split <;> omega

lemma reportedUpTo_le_next (h : Placed text (inView older? last? (t :: ts))) :
    reportedUpTo older? last? ≤ reportedUpTo last? (some t) := by
  cases last? with
  | none => exact Nat.zero_le _
  | some last =>
    have low := reportedUpTo_le h
    have := h.last_before
    rw [reportedUpTo.eq_def (some last)]
    simp only
    split <;> omega

lemma reportedUpTo_le_start (h : Placed text (inView older? last? (t :: ts))) :
    reportedUpTo older? last? ≤ t.span.start :=
  (reportedUpTo_le_next h).trans (reportedUpTo_le h.step)

end Places

section Order
variable (schema : Schema) {text : List Char} {older? last? : Option Token} {t : Token} {ts : List Token}
  {d e : Diagnostic}

lemma mem_check {rule : Rule} {value : String} {key span : Span} (h : e ∈ rule.check value key span) :
    e = redundant ⟨key.start, span.stop⟩ ∨ e.span = span ∧ e.fixes = [] := by
  rcases List.mem_append.mp h with h | h
  · obtain ⟨first, rest, split⟩ := List.append_of_mem h
    obtain ⟨-, -, rfl | ⟨message, rfl, -⟩⟩ := checkContent_eq_append_cons split
    · exact .inl rfl
    · exact .inr ⟨rfl, rfl⟩
  · simp only [Rule.checkType, Option.mem_toList, Option.map_eq_some_iff] at h
    obtain ⟨message, -, rfl⟩ := h
    exact .inr ⟨rfl, rfl⟩

lemma check_pairwise (rule : Rule) (value : String) {key span : Span} (ordered : key.start ≤ span.start) :
    (rule.check value key span).Pairwise fun d e => d.span.start ≤ e.span.start := by
  rw [Rule.check, List.pairwise_append]
  refine ⟨?_, ?_, ?_⟩
  · cases h : rule.checkContent value key span with
    | nil => exact .nil
    | cons d rest =>
      obtain ⟨-, rfl, -⟩ := checkContent_eq_append_cons (show _ = [] ++ d :: rest from h)
      exact List.pairwise_singleton _ d
  · rw [Rule.checkType]
    cases rule.valueType.bind (·.mismatch? value.toList) <;> simp
  · intro d hd e he
    rw [(mem_checkType he).1]
    rcases mem_check (List.mem_append_left _ hd) with rfl | ⟨place, -⟩
    · exact ordered
    · rw [place]

/-- What breaks off is said where the last token ends or where the next one stands. -/
lemma mem_interruption {older? next? : Option Kind} {last : Token} {place : Span}
    (h : e ∈ interruption older? last next? place) :
    (e.span = place ∧ e.fixes = [] ∨
      ∃ insert, e.span = .point last.span.stop ∧ e.fixes = [⟨.fix, .insertion last.span.stop insert⟩]) ∧
      (last.kind = .keyName → next? ≠ some .assign) ∧
      (last.kind = .assign → next?.any Kind.isLiteral = false) := by
  obtain ⟨first, rest, split⟩ := List.append_of_mem h
  obtain ⟨-, -, ⟨kind, rfl⟩ | ⟨-, kind, rfl⟩ | ⟨kind, other, rfl⟩ | ⟨kind, other, rfl⟩⟩ :=
    interruption_eq_append_cons split
  · exact ⟨.inl ⟨rfl, rfl⟩, by simp [kind], by simp [kind]⟩
  · exact ⟨.inr ⟨"]", rfl, rfl⟩, by simp [kind], by simp [kind]⟩
  · exact ⟨.inr ⟨"=", rfl, rfl⟩, fun _ => other, by simp [kind]⟩
  · exact ⟨.inl ⟨rfl, rfl⟩, by simp [kind], fun _ => other⟩

lemma interruption_pairwise (older? : Option Kind) (last : Token) (next? : Option Kind) (place : Span) :
    (interruption older? last next? place).Pairwise fun d e => d.span.start ≤ e.span.start := by
  cases h : interruption older? last next? place with
  | nil => exact .nil
  | cons d rest =>
    obtain ⟨-, rfl, -⟩ := interruption_eq_append_cons (show _ = [] ++ d :: rest from h)
    exact List.pairwise_singleton _ d

lemma mem_findings {older? last? : Option Kind} {key? : Option Token}
    (h : e ∈ findings schema older? last? t key?) :
    t.kind ≠ .assign ∧ (e.span = t.span ∧ e.fixes = [] ∨
      ∃ key, key? = some key ∧ older? = some .keyName ∧ last? = some .assign ∧ t.kind.isLiteral = true ∧
        e = redundant ⟨key.span.start, t.span.stop⟩) := by
  obtain ⟨first, rest, split⟩ := List.append_of_mem h
  obtain ⟨-, -, ⟨kind, rfl⟩ | ⟨kind, rfl⟩⟩ | ⟨key, rule, hkey, older, last, literal, -, checked⟩ :=
    findings_eq_append_cons schema split
  · exact ⟨by simp [kind], .inl ⟨rfl, rfl⟩⟩
  · exact ⟨by simp [kind], .inl ⟨rfl, rfl⟩⟩
  · refine ⟨?_, ?_⟩
    · intro assign
      rw [assign] at literal
      cases literal
    · rcases mem_check (show e ∈ rule.check _ _ _ by rw [checked]; simp) with rfl | place
      · exact .inr ⟨key, hkey, older, last, literal, rfl⟩
      · exact .inl place

lemma findings_pairwise (placed : Placed text (inView older? last? (t :: ts))) :
    (findings schema (older?.map (·.kind)) (last?.map (·.kind)) t older?).Pairwise
      fun d e => d.span.start ≤ e.span.start := by
  cases h : findings schema (older?.map (·.kind)) (last?.map (·.kind)) t older? with
  | nil => exact .nil
  | cons d rest =>
    obtain ⟨-, rfl, -⟩ | ⟨key, rule, rfl, -, assign, -, -, checked⟩ :=
      findings_eq_append_cons schema (show _ = [] ++ d :: rest from h)
    · exact List.pairwise_singleton _ d
    · obtain ⟨last, rfl, -⟩ := Option.map_eq_some_iff.mp assign
      have := placed.last_before
      have := placed.older_before
      rw [List.nil_append] at checked
      rw [← checked]
      exact check_pairwise rule _ (by omega)

/-- What a token adds to the report lies between the places that the report has come to before and after. -/
lemma remark_bounds (placed : Placed text (inView older? last? (t :: ts)))
    (h : e ∈ remark schema older? last? t) :
    reportedUpTo older? last? ≤ e.span.start ∧ e.span.start ≤ reportedUpTo last? (some t) := by
  have low := reportedUpTo_le_start placed
  rw [remark_eq] at h
  rcases List.mem_append.mp h with h | h
  · cases last? with
    | none => simp at h
    | some last =>
      obtain ⟨place, key, -⟩ := mem_interruption h
      have upper : reportedUpTo (some last) (some t) = t.span.start := by
        apply reportedUpTo_of_not_key
        by_cases kind : last.kind = .keyName
        · exact .inr fun assign => key kind (by rw [assign])
        · exact .inl (by simpa using kind)
      have := reportedUpTo_le placed
      have := placed.last_before
      rw [upper]
      rcases place with ⟨place, -⟩ | ⟨insert, place, -⟩
      · rw [place]
        omega
      · rw [place]
        simp only [Span.point]
        omega
  · obtain ⟨other, place⟩ := mem_findings schema h
    rw [reportedUpTo_of_not_key (.inr other)]
    rcases place with ⟨place, -⟩ | ⟨key, rfl, keyKind, assignKind, -, rfl⟩
    · rw [place]
      omega
    · obtain ⟨assign, rfl, named⟩ := Option.map_eq_some_iff.mp assignKind
      have := placed.last_before
      have := placed.older_before
      rw [reportedUpTo, if_pos ⟨Option.some.inj keyKind, named⟩]
      simp only [redundant, Diagnostic.withFix, Diagnostic.hint]
      omega

lemma remark_pairwise (placed : Placed text (inView older? last? (t :: ts))) :
    (remark schema older? last? t).Pairwise fun d e => d.span.start ≤ e.span.start := by
  rw [remark_eq, List.pairwise_append]
  refine ⟨?_, findings_pairwise schema placed, ?_⟩
  · cases last? with
    | none => exact .nil
    | some last => exact interruption_pairwise _ last _ t.span
  · intro d hd e he
    cases last? with
    | none => simp at hd
    | some last =>
      have := placed.last_before
      obtain ⟨broken, -, value⟩ := mem_interruption hd
      rcases (mem_findings schema he).2 with ⟨place, -⟩ | ⟨key, -, -, assign, literal, -⟩
      · rcases broken with ⟨broken, -⟩ | ⟨insert, broken, -⟩
        · rw [place, broken]
        · rw [place, broken]
          exact this.2
      · -- a value that is checked breaks nothing off
        have := value (Option.some.inj assign)
        rw [Option.any_some, literal] at this
        cases this

lemma le_of_mem_closing (placed : Placed text (inView older? last? []))
    (h : e ∈ closing schema (Text.bytes text) older? last?) : reportedUpTo older? last? ≤ e.span.start := by
  rw [closing_eq] at h
  cases last? with
  | none => simp at h
  | some last =>
    have low := reportedUpTo_le placed
    have within := placed.within last (by simp [inView])
    have := within.ordered
    have := within.inside
    rcases (mem_interruption h).1 with ⟨place, -⟩ | ⟨insert, place, -⟩
    · rw [place]
      simp only [Span.point]
      omega
    · rw [place]
      simp only [Span.point]
      omega

lemma closing_pairwise (size : Nat) :
    (closing schema size older? last?).Pairwise fun d e => d.span.start ≤ e.span.start := by
  rw [closing_eq]
  cases last? with
  | none => exact .nil
  | some last => exact interruption_pairwise _ last _ (.point size)

lemma le_of_mem_lint (placed : Placed text (inView older? last? ts))
    (h : e ∈ lint schema (Text.bytes text) older? last? ts) : reportedUpTo older? last? ≤ e.span.start := by
  induction ts generalizing older? last? with
  | nil =>
    rw [lint_nil] at h
    exact le_of_mem_closing schema placed h
  | cons t ts ih =>
    rw [lint_cons] at h
    rcases List.mem_append.mp h with h | h
    · exact (remark_bounds schema placed h).1
    · exact (reportedUpTo_le_next placed).trans (ih placed.step h)

/-- Along tokens in place, everything is said in order. -/
theorem lint_pairwise (placed : Placed text (inView older? last? ts)) :
    (lint schema (Text.bytes text) older? last? ts).Pairwise fun d e => d.span.start ≤ e.span.start := by
  induction ts generalizing older? last? with
  | nil =>
    rw [lint_nil]
    exact closing_pairwise schema _
  | cons t ts ih =>
    rw [lint_cons, List.pairwise_append]
    refine ⟨remark_pairwise schema placed, ih placed.step, ?_⟩
    -- what this token says and what is said later lie on two sides of `reportedUpTo last? (some t)`
    intro d hd e he
    exact (remark_bounds schema placed hd).2.trans (le_of_mem_lint schema placed.step he)

end Order

section Fitting
variable (schema : Schema) {text : List Char} {older? last? : Option Token} {t : Token} {ts : List Token}
  {e : Diagnostic}

/-- A diagnostic and its fixes point to parts of the text. -/
def Diagnostic.Fits (text : List Char) (d : Diagnostic) : Prop :=
  d.span.Within text ∧ ∀ fix ∈ d.fixes, fix.edit.span.Within text

lemma fits_of_no_fixes {place : Span} (within : place.Within text) (h : e.span = place ∧ e.fixes = []) :
    e.Fits text := by
  refine ⟨h.1 ▸ within, ?_⟩
  intro fix hfix
  rw [h.2] at hfix
  cases hfix

lemma fits_of_mem_interruption {older? next? : Option Kind} {last : Token} {place : Span}
    (hlast : last.span.Within text) (hplace : place.Within text)
    (h : e ∈ interruption older? last next? place) : e.Fits text := by
  rcases (mem_interruption h).1 with plain | ⟨insert, point, fixes⟩
  · exact fits_of_no_fixes hplace plain
  · refine ⟨point ▸ hlast.point_stop, ?_⟩
    intro fix hfix
    rw [fixes, List.mem_singleton] at hfix
    subst hfix
    exact hlast.point_stop

lemma fits_of_mem_findings (placed : Placed text (inView older? last? (t :: ts)))
    (h : e ∈ findings schema (older?.map (·.kind)) (last?.map (·.kind)) t older?) : e.Fits text := by
  have ht := placed.within t (by simp [inView])
  rcases (mem_findings schema h).2 with plain | ⟨key, rfl, -, assign, -, rfl⟩
  · exact fits_of_no_fixes ht plain
  · obtain ⟨last, rfl, -⟩ := Option.map_eq_some_iff.mp assign
    have := placed.last_before
    have := placed.older_before
    have := ht.ordered
    have whole := (placed.within key (by simp [inView])).through ht (by omega)
    refine ⟨whole, ?_⟩
    intro fix hfix
    simp only [redundant, Diagnostic.withFix, Diagnostic.hint, List.nil_append, List.mem_singleton] at hfix
    subst hfix
    exact whole

theorem fits_of_mem_lint (placed : Placed text (inView older? last? ts))
    (h : e ∈ lint schema (Text.bytes text) older? last? ts) : e.Fits text := by
  induction ts generalizing older? last? with
  | nil =>
    rw [lint_nil, closing_eq] at h
    cases last? with
    | none => simp at h
    | some last =>
      exact fits_of_mem_interruption (placed.within last (by simp [inView])) (Span.within_point_end text) h
  | cons t ts ih =>
    rw [lint_cons, remark_eq] at h
    rcases List.mem_append.mp h with h | h
    · rcases List.mem_append.mp h with h | h
      · cases last? with
        | none => simp at h
        | some last =>
          exact fits_of_mem_interruption (placed.within last (by simp [inView]))
            (placed.within t (by simp [inView])) h
      · exact fits_of_mem_findings schema placed h
    · exact ih placed.step h

end Fitting

/-- The report of a scanned text is in order, everything in it is about a part of the text, and every fix is
really carried out there. -/
theorem diagnose_scan_ordered (schema : Schema) (text : String) :
    ((diagnose schema (scan text)).Pairwise fun d e => d.span.start ≤ e.span.start) ∧
      ∀ d ∈ diagnose schema (scan text), d.span.Within text.toList ∧
        ∀ fix ∈ d.fixes, fix.edit.span.Within text.toList ∧
          ∃ front middle back, text.toList = front ++ (middle ++ back) ∧
            fix.edit.span = ⟨Text.bytes front, Text.bytes front + Text.bytes middle⟩ ∧
            fix.apply text = String.ofList (front ++ (fix.edit.insert.toList ++ back)) := by
  have placed : Placed text.toList (inView none none (tokens 0 (lexemes .fresh text.toList))) := by
    have placed := placed_tokens (lexemes .fresh text.toList)
    rw [charsOf_lexemes] at placed
    exact placed
  rw [diagnose_scan]
  refine ⟨lint_pairwise schema placed, ?_⟩
  intro d hd
  obtain ⟨within, fixes⟩ := fits_of_mem_lint schema placed hd
  exact ⟨within, fun fix hfix => ⟨fixes fix hfix, TextEdit.apply_of_within (fixes fix hfix)⟩⟩

end Keyfile
