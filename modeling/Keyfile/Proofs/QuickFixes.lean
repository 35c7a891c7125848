import Keyfile.Editor.View
import Keyfile.Proofs.Positions
import Keyfile.Proofs.ReportOrder

/-! Quick fixes in an editor. A fix is offered where its diagnostic is published, and the change that the editor
makes is the one that the fix describes. -/
namespace Keyfile
open Adjacency

/-- The offsets of a range. A position behind the last line stands for the end of the text. -/
def Range.span (text : List Char) (r : Range) : Span :=
  ⟨(Text.offsetAt? text r.start.line r.start.column).getD (Text.bytes text),
    (Text.offsetAt? text r.stop.line r.stop.column).getD (Text.bytes text)⟩

/-- Neither of two ranges ends before the other starts. -/
def Span.Touches (s t : Span) : Prop := s.start ≤ t.stop ∧ t.start ≤ s.stop

section Ranges
variable {text : List Char} {s t : Span}

/-- Ranges that touch have a place in common. -/
lemma Span.touches_iff (hs : s.start ≤ s.stop) (ht : t.start ≤ t.stop) :
    s.Touches t ↔ ∃ place, (s.start ≤ place ∧ place ≤ s.stop) ∧ t.start ≤ place ∧ place ≤ t.stop := by
  constructor
  · rintro ⟨left, right⟩
    exact ⟨max s.start t.start, ⟨le_max_left _ _, max_le hs right⟩, le_max_right _ _, max_le left ht⟩
  · rintro ⟨place, ⟨low, high⟩, low', high'⟩
    exact ⟨low.trans high', low'.trans high⟩

/-- A part of the text is found again by its range. -/
lemma Range.span_rangeOf (h : s.Within text) : (Text.rangeOf text s).span text = s := by
  rw [Text.rangeOf, Range.span, Text.offsetAt?_positionAt h.start_boundary,
    Text.offsetAt?_positionAt h.stop_boundary]
  rfl

lemma Range.span_ordered {r : Range} (h : r.start ≤ r.stop) (text : List Char) :
    (r.span text).start ≤ (r.span text).stop := by
  unfold Range.span
  cases stop : Text.offsetAt? text r.stop.line r.stop.column with
  | none =>
    cases start : Text.offsetAt? text r.start.line r.start.column with
    | none => exact le_refl _
    | some a => exact Text.offsetAt?_le start
  | some b =>
    obtain ⟨a, start⟩ : ∃ a, Text.offsetAt? text r.start.line r.start.column = some a := by
      rw [← Option.ne_none_iff_exists']
      intro missing
      have past := (Text.offsetAt?_eq_none_iff _ _).mp missing
      have lower : r.start.line ≤ r.stop.line := by
        rcases Position.le_iff.mp h with lower | ⟨same, -⟩ <;> omega
      rw [(Text.offsetAt?_eq_none_iff _ _).mpr (past.trans lower)] at stop
      cases stop
    rw [start]
    exact Text.offsetAt?_mono h start stop

end Ranges

/-- The diagnostics of a scanned text and their fixes are about parts of the text. -/
lemma fits_of_mem_diagnose {schema : Schema} {text : String} {d : Diagnostic}
    (h : d ∈ diagnose schema (scan text)) : d.Fits text.toList := by
  have placed := placed_tokens (lexemes .fresh text.toList)
  rw [charsOf_lexemes] at placed
  rw [diagnose_scan] at h
  exact fits_of_mem_lint schema (show Placed _ (inView none none _) from placed) h

namespace Editor

/-- What an editor makes of a text with an action: the range replaced by the new text. -/
def Action.perform? (a : Action) (text : String) : Option String := do
  let start ← Text.offsetAt? text.toList a.range.start.line a.range.start.column
  let stop ← Text.offsetAt? text.toList a.range.stop.line a.range.stop.column
  let (front, _, back) ← Span.parts? ⟨start, stop⟩ text.toList
  some (String.ofList (front ++ (a.newText.toList ++ back)))

/-- An action for a published report that makes the change of a fix. -/
structure Action.CarriesOut (text uri : String) (published : Report) (fix : Fix) (a : Action) : Prop where
  uri_eq : a.uri = uri
  report_eq : a.report = published
  start : Text.offsetAt? text.toList a.range.start.line a.range.start.column = some fix.edit.span.start
  stop : Text.offsetAt? text.toList a.range.stop.line a.range.stop.column = some fix.edit.span.stop
  newText_eq : a.newText = fix.edit.insert
  performed : a.perform? text = some (fix.apply text)

/-- An action for a fix is among those for a range. -/
def Offered (a : Analyzer) (text uri : String) (published : Report) (fix : Fix) (range : Range) : Prop :=
  ∃ act ∈ a.actionsIn (scan text) uri range, act.CarriesOut text uri published fix

section Actions
variable {text : String} {catalog : Catalog} {source uri : String} {d : Diagnostic}

/-- The range of a fix is mapped back to its span, and there the text is changed. -/
lemma carriesOut_of_within {fix : Fix} (h : fix.edit.span.Within text.toList) (title : String)
    (published : Report) (preferred : Bool) :
    Action.CarriesOut text uri published fix
      ⟨title, published, uri, Text.rangeOf text.toList fix.edit.span, fix.edit.insert, preferred⟩ := by
  have start := Text.offsetAt?_positionAt h.start_boundary
  have stop := Text.offsetAt?_positionAt h.stop_boundary
  refine ⟨rfl, rfl, start, stop, rfl, ?_⟩
  obtain ⟨front, middle, back, whole, place, applied⟩ := TextEdit.apply_of_within h
  have parts : fix.edit.span.parts? text.toList = some (front, middle, back) := by
    rw [place, whole, Span.parts?_append]
  simp only [Action.perform?, Text.rangeOf, start, stop, parts, Option.bind_eq_bind, Option.bind_some]
  rw [Fix.apply, applied]

lemma forall₂_mapIdx {α β : Type} {R : α → β → Prop} {f : Nat → α → β} {xs : List α}
    (h : ∀ x ∈ xs, ∀ i, R x (f i x)) : List.Forall₂ R xs (xs.mapIdx f) := by
  induction xs generalizing f with
  | nil => exact .nil
  | cons x xs ih =>
    rw [List.mapIdx_cons]
    exact .cons (h x (by simp) 0) (ih fun y hy i => h y (by simp [hy]) (i + 1))

lemma isInfix_flatMap {α β : Type} {f : α → List β} {xs : List α} {x : α} (h : x ∈ xs) :
    f x <:+: xs.flatMap f := by
  obtain ⟨before, after, rfl⟩ := List.append_of_mem h
  exact ⟨before.flatMap f, after.flatMap f, by simp⟩

/-- There is one action for each fix, in their order. -/
lemma actions_carryOut (fits : d.Fits text.toList) :
    List.Forall₂ (Action.CarriesOut text uri (report catalog source text.toList d)) d.fixes
      (actions catalog source uri text.toList d) :=
  forall₂_mapIdx fun fix hfix _ => carriesOut_of_within (fits.2 fix hfix) _ _ _

lemma report_of_mem_actions {a : Action} (h : a ∈ actions catalog source uri text.toList d) :
    a.report = report catalog source text.toList d := by
  obtain ⟨i, -, rfl⟩ := List.mem_mapIdx.mp h
  rfl

end Actions

section Found
variable {a : Analyzer} {text uri : String} {d : Diagnostic} {range : Range}

/-- The actions for a range are those of the diagnostics that it touches. -/
lemma actions_isInfix (reported : d ∈ a.diagnose (scan text)) (touches : (range.span text.toList).Touches d.span) :
    actions a.catalog a.settings.source uri text.toList d <:+: a.actionsIn (scan text) uri range := by
  have kept : d ∈ (a.diagnose (scan text)).filter fun g =>
      g.span.start ≤ (range.span text.toList).stop && (range.span text.toList).start ≤ g.span.stop := by
    rw [List.mem_filter]
    exact ⟨reported, by simpa using touches.symm⟩
  exact isInfix_flatMap kept

lemma touches_of_mem_actionsIn {act : Action} (h : act ∈ a.actionsIn (scan text) uri range) :
    ∃ d ∈ a.diagnose (scan text), (range.span text.toList).Touches d.span ∧
      act ∈ actions a.catalog a.settings.source uri text.toList d := by
  simp only [Analyzer.actionsIn, List.mem_flatMap, List.mem_filter, Bool.and_eq_true, decide_eq_true_eq] at h
  obtain ⟨d, ⟨reported, right, left⟩, member⟩ := h
  exact ⟨d, reported, ⟨left, right⟩, member⟩

/-- An action is offered for a range exactly if the range touches its diagnostic. -/
lemma offered_iff (enabled : a.settings.features.diagnostics = true)
    (reported : d ∈ diagnose a.schema (scan text)) {fix : Fix} (hfix : fix ∈ d.fixes) :
    Offered a text uri (report a.catalog a.settings.source text.toList d) fix range ↔
      (range.span text.toList).Touches d.span := by
  have same : a.diagnose (scan text) = diagnose a.schema (scan text) := if_pos enabled
  have fits := fits_of_mem_diagnose reported
  constructor
  · rintro ⟨act, member, carries⟩
    obtain ⟨e, he, touches, member⟩ := touches_of_mem_actionsIn member
    rw [same] at he
    -- what is published of a diagnostic tells its place
    have ranges : Text.rangeOf text.toList e.span = Text.rangeOf text.toList d.span :=
      congrArg Report.range ((report_of_mem_actions member).symm.trans carries.report_eq)
    have place := congrArg (Range.span text.toList) ranges
    rw [Range.span_rangeOf (fits_of_mem_diagnose he).1, Range.span_rangeOf fits.1] at place
    rw [← place]
    exact touches
  · intro touches
    rw [← same] at reported
    obtain ⟨i, hi, rfl⟩ := List.getElem_of_mem hfix
    exact ⟨_, (actions_isInfix reported touches).subset (List.mem_mapIdx.mpr ⟨i, hi, rfl⟩),
      carriesOut_of_within (fits.2 _ hfix) _ _ _⟩

/-- For every diagnostic with its report as published: the actions for the published range hold one for each of
its fixes, in order, and an action for one of its fixes is offered exactly where a range touches it. -/
theorem quickFixes_offered (a : Analyzer) (enabled : a.settings.features.diagnostics = true) (text uri : String)
    {i : Nat} {d : Diagnostic} (reported : (diagnose a.schema (scan text))[i]? = some d) :
    ∃ published, (a.reports (scan text))[i]? = some published ∧
      (∃ acts, acts <:+: a.actionsIn (scan text) uri published.range ∧
        List.Forall₂ (Action.CarriesOut text uri published) d.fixes acts) ∧
      ∀ fix ∈ d.fixes, ∀ range : Range,
        (Offered a text uri published fix range ↔ (range.span text.toList).Touches d.span) ∧
        (range.start ≤ range.stop →
          (Offered a text uri published fix range ↔
            ∃ place, ((range.span text.toList).start ≤ place ∧ place ≤ (range.span text.toList).stop) ∧
              d.span.start ≤ place ∧ place ≤ d.span.stop)) := by
  have same : a.diagnose (scan text) = diagnose a.schema (scan text) := if_pos enabled
  have listed := List.mem_of_getElem? reported
  have fits := fits_of_mem_diagnose listed
  have ordered := fits.1.ordered
  refine ⟨report a.catalog a.settings.source text.toList d, ?_, ?_, ?_⟩
  · rw [Analyzer.reports, same, List.getElem?_map, reported]
    rfl
  · refine ⟨actions a.catalog a.settings.source uri text.toList d, ?_, actions_carryOut fits⟩
    apply actions_isInfix (same.symm ▸ listed)
    rw [report, Range.span_rangeOf fits.1]
    exact ⟨ordered, ordered⟩
  · intro fix hfix range
    have offered : Offered a text uri _ fix range ↔ _ := offered_iff enabled listed hfix
    refine ⟨offered, ?_⟩
    intro forward
    rw [offered, Span.touches_iff (Range.span_ordered forward _) ordered]

/-- The fix of a key on the second line, behind a letter of four bytes and two units. -/
theorem quickFixes_offered_second_line :
    (diagnose .empty (scan "a=1\n𝒜"))[2]? = some (missingAssign 8) ∧
      ∃ published, ((Analyzer.plain .empty default).reports (scan "a=1\n𝒜"))[2]? = some published ∧
        (∃ acts, acts <:+: (Analyzer.plain .empty default).actionsIn (scan "a=1\n𝒜") "u" published.range ∧
          List.Forall₂ (Action.CarriesOut "a=1\n𝒜" "u" published) (missingAssign 8).fixes acts) ∧
        ∀ fix ∈ (missingAssign 8).fixes, ∀ range : Range,
          (Offered (.plain .empty default) "a=1\n𝒜" "u" published fix range ↔
            (range.span "a=1\n𝒜".toList).Touches (missingAssign 8).span) ∧
          (range.start ≤ range.stop →
            (Offered (.plain .empty default) "a=1\n𝒜" "u" published fix range ↔
              ∃ place, ((range.span "a=1\n𝒜".toList).start ≤ place ∧
                  place ≤ (range.span "a=1\n𝒜".toList).stop) ∧
                (missingAssign 8).span.start ≤ place ∧ place ≤ (missingAssign 8).span.stop)) := by
  have reported : (diagnose .empty (scan "a=1\n𝒜"))[2]? = some (missingAssign 8) := by
    rw [scan_eq_within]
    decide +kernel
  exact ⟨reported, quickFixes_offered (.plain .empty default) rfl _ _ reported⟩

end Found

end Editor

end Keyfile
