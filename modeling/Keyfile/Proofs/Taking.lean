import Keyfile.Document.Builder
import Keyfile.Proofs.Operations

/-! What becomes of diagnostics that are taken from a machine, and of all that was done to it before.
Where hooks only append, taking diagnostics away changes no state and loses nothing: the parts taken and
the rest are what would have been there. A run gives what it gives on a new machine. -/
namespace Keyfile.Adjacency

/-- A row whose hooks append what they find, whatever is there already. -/
structure Row.OnlyAppends (r : Row) : Prop where
  onEnter : ∀ hook, r.onEnter = some hook → ∃ check : NodeCheck, hook = check.hook
  onLeave : ∀ hook, r.onLeave = some hook → ∃ check : NodeCheck, hook = check.hook
  onError : ∀ hook, r.onError = some hook → ∃ report : InterruptionReport, hook = report.hook

/-- Operations that feed a machine. -/
def Operation.isFeed : Operation → Bool
  | .process _ _ => true
  | .finish _ => true
  | _ => false

namespace Machine

/-- The diagnostics that are taken along operations, one list for each time. -/
def taken (m : Machine) : List Operation → List (List Diagnostic)
  | [] => []
  | .take :: ops => m.take.1 :: m.take.2.taken ops
  | op :: ops => (m.perform op).taken ops

/-- The states after the operations that take nothing. -/
def states (m : Machine) : List Operation → List (Option State)
  | [] => []
  | .take :: ops => m.take.2.states ops
  | op :: ops => (m.perform op).state :: (m.perform op).states ops

/-- The same machine with further diagnostics before its own. -/
def behind (m : Machine) (earlier : List Diagnostic) : Machine :=
  { m with diagnostics := earlier ++ m.diagnostics }

end Machine

namespace Row.OnlyAppends
variable {r : Row} (h : r.OnlyAppends) (earlier out : List Diagnostic)
include h

lemma entering_append (ctx : Context) (node : Cursor) :
    r.entering ctx node (earlier ++ out) = earlier ++ r.entering ctx node out := by
  unfold Row.entering
  cases found : r.onEnter with
  | none => rfl
  | some hook =>
    obtain ⟨check, rfl⟩ := h.onEnter hook found
    exact List.append_assoc earlier out _

lemma leaving_append (ctx : Context) (node : Cursor) :
    r.leaving ctx node (earlier ++ out) = earlier ++ r.leaving ctx node out := by
  unfold Row.leaving
  cases found : r.onLeave with
  | none => rfl
  | some hook =>
    obtain ⟨check, rfl⟩ := h.onLeave hook found
    exact List.append_assoc earlier out _

lemma report_append (place : Span) (cause : Interruption) :
    r.report place cause (earlier ++ out) = earlier ++ r.report place cause out := by
  unfold Row.report
  cases found : r.onError with
  | none => rfl
  | some hook =>
    obtain ⟨report, rfl⟩ := h.onError hook found
    exact List.append_assoc earlier out _

end Row.OnlyAppends

/-- A machine all of whose rows only append. -/
structure Appending (m : Machine) : Prop where
  listed : ∀ row ∈ m.table, row.OnlyAppends
  current : ∀ row, m.current = some row → row.OnlyAppends

namespace Appending
variable {m : Machine}

lemma start {table : List Row} (h : ∀ row ∈ table, row.OnlyAppends) : Appending (Machine.start table) :=
  ⟨h, fun _ none_current => by cases none_current⟩

/-- The current row is from the table or was current before. -/
lemma perform (h : Appending m) (op : Operation) : Appending (m.perform op) := by
  refine ⟨by rw [table_perform]; exact h.listed, ?_⟩
  intro row current
  cases op with
  | process ctx node =>
    rw [Machine.perform, Machine.process, Machine.advance] at current
    cases found : (m.interrupt node).table.find? (·.accepts (m.interrupt node).state node.kind) with
    | none =>
      simp only [found] at current
      exact h.current row (current_interrupt current).1
    | some next =>
      simp only [found, Machine.enter, Option.some.injEq] at current
      have listed := List.mem_of_find?_eq_some found
      rw [interrupt_eq_replay, table_replay] at listed
      exact h.listed row (current ▸ listed)
  | finish offset => cases current
  | take => exact h.current row current
  | clear => cases current

lemma performAll (h : Appending m) (ops : List Operation) : Appending (m.performAll ops) := by
  induction ops generalizing m with
  | nil => exact h
  | cons op ops ih => exact ih (h.perform op)

variable (h : Appending m) (earlier : List Diagnostic)
include h

lemma interrupt_behind (node : Cursor) :
    (m.behind earlier).interrupt node = (m.interrupt node).behind earlier := by
  obtain ⟨table, state, current, entered, diagnostics⟩ := m
  cases current with
  | none => rfl
  | some row =>
    simp only [Machine.interrupt, Machine.behind, (h.current row rfl).report_append]
    split <;> rfl

lemma departing_behind (ctx : Context) (node : Cursor) :
    (m.behind earlier).departing ctx node = earlier ++ m.departing ctx node := by
  unfold Machine.departing Machine.behind
  cases current : m.current with
  | none => rfl
  | some row => exact (h.current row current).leaving_append earlier _ ctx node

lemma advance_behind (ctx : Context) (node : Cursor) :
    (m.behind earlier).advance ctx node = (m.advance ctx node).behind earlier := by
  have same : (m.behind earlier).table.find? (·.accepts (m.behind earlier).state node.kind) =
      m.table.find? (·.accepts m.state node.kind) := rfl
  rw [Machine.advance, Machine.advance, same]
  cases found : m.table.find? (·.accepts m.state node.kind) with
  | none => rfl
  | some next =>
    have appends := h.listed next (List.mem_of_find?_eq_some found)
    simp only [Machine.enter, h.departing_behind, appends.entering_append]
    rfl

lemma finish_behind (offset : Nat) :
    (m.behind earlier).finish offset = (m.finish offset).behind earlier := by
  obtain ⟨table, state, current, entered, diagnostics⟩ := m
  cases current with
  | none => rfl
  | some row =>
    simp only [Machine.finish, Machine.behind, (h.current row rfl).report_append]
    split <;> rfl

/-- What is fed to a machine does not touch the diagnostics that came before. -/
lemma perform_behind {op : Operation} (feed : op.isFeed = true) :
    (m.behind earlier).perform op = (m.perform op).behind earlier := by
  cases op with
  | process ctx node =>
    have interrupted : Appending (m.interrupt node) := by
      refine ⟨?_, fun row current => h.current row (current_interrupt current).1⟩
      rw [interrupt_eq_replay, table_replay]
      exact h.listed
    rw [Machine.perform, Machine.process, h.interrupt_behind, interrupted.advance_behind]
    rfl
  | finish offset => exact h.finish_behind earlier offset
  | take => cases feed
  | clear => cases feed

omit h in
lemma states_cons {op : Operation} (keeps : op.isTake = false) (ops : List Operation) :
    m.states (op :: ops) = (m.perform op).state :: (m.perform op).states ops := by
  cases op with
  | take => cases keeps
  | _ => rfl

omit h in
lemma taken_cons {op : Operation} (keeps : op.isTake = false) (ops : List Operation) :
    m.taken (op :: ops) = (m.perform op).taken ops := by
  cases op with
  | take => cases keeps
  | _ => rfl

/-- Along operations that feed or take, what was taken goes before what is left. -/
lemma performAll_behind {ops : List Operation} (kept : ∀ op ∈ ops, op.isFeed = true ∨ op.isTake = true) :
    (m.behind earlier).performAll (ops.filter fun op => !op.isTake) =
        (m.performAll ops).behind (earlier ++ (m.taken ops).flatten) ∧
      (m.behind earlier).states (ops.filter fun op => !op.isTake) = m.states ops := by
  induction ops generalizing m earlier with
  | nil => simp [Machine.taken, Machine.states]
  | cons op ops ih =>
    have rest : ∀ op ∈ ops, op.isFeed = true ∨ op.isTake = true :=
      fun op later => kept op (List.mem_cons_of_mem _ later)
    cases take : op.isTake with
    | true =>
      cases op with
      | take =>
        obtain ⟨performed, seen⟩ := ih (h.perform .take) (earlier ++ m.diagnostics) rest
        have same : m.behind earlier = (m.perform .take).behind (earlier ++ m.diagnostics) := by
          simp [Machine.behind, Machine.perform, Machine.take]
        rw [List.filter_cons_of_neg (by simp [take]), same, performed, seen]
        simp [Machine.taken, Machine.states, Machine.take, Machine.perform]
      | _ => cases take
    | false =>
      have feed : op.isFeed = true := by simpa [take] using kept op List.mem_cons_self
      have moved := h.perform_behind earlier feed
      obtain ⟨performed, seen⟩ := ih (h.perform op) earlier rest
      rw [List.filter_cons_of_pos (by simp [take]), states_cons take, states_cons take, taken_cons take,
        Machine.performAll_cons, Machine.performAll_cons, moved, seen]
      exact ⟨performed, rfl⟩

end Appending

/-- The rows for the language only append. -/
lemma table_onlyAppends : ∀ row ∈ table, row.OnlyAppends := by
  intro row listed
  simp only [table, List.mem_cons, List.not_mem_nil, or_false] at listed
  rcases listed with rfl | rfl | rfl | rfl | rfl | rfl
  all_goals
    refine ⟨?_, ?_, ?_⟩
    all_goals
      intro hook found
      cases found <;> exact ⟨_, rfl⟩

/-- All nodes of a document and its end, fed to a machine that was cleared. -/
def rerun (schema : Schema) (d : Document) : List Operation :=
  .clear :: d.cursors.map (.process ⟨schema, d⟩) ++ [.finish d.size]

lemma performAll_rerun (m : Machine) (schema : Schema) (d : Document) :
    m.performAll (rerun schema d) = m.run schema d := by
  simp only [rerun, Machine.performAll, Machine.run, List.cons_append, List.foldl_cons, List.foldl_append,
    List.foldl_map, List.foldl_nil]
  rfl

/-- Whatever was done to a machine before: where its hooks only append, diagnostics may be taken at any
points between the operations that feed it, without a change of the states, and what was taken goes
before what is left. A run gives what a new machine gives, and so do a clear, all nodes and the end. -/
theorem taking_loses_nothing (table : List Row) (history : List Operation) :
    let m := (Machine.start table).performAll history
    ((∀ row ∈ table, row.OnlyAppends) →
      ∀ feeds ops : List Operation, (∀ op ∈ feeds, op.isFeed = true) →
        (ops.filter fun op => !op.isTake) = feeds →
        m.states ops = m.states feeds ∧
        (m.taken ops).flatten ++ (m.performAll ops).diagnostics = (m.performAll feeds).diagnostics) ∧
    ∀ schema d, m.run schema d = (Machine.start table).run schema d ∧
      m.performAll (rerun schema d) = (Machine.start table).run schema d := by
  intro m
  constructor
  · rintro appends feeds ops fed rfl
    have kept : ∀ op ∈ ops, op.isFeed = true ∨ op.isTake = true := by
      intro op listed
      by_cases take : op.isTake = true
      · exact .inr take
      · exact .inl (fed op (List.mem_filter.mpr ⟨listed, by simpa using take⟩))
    have appending : Appending m := (Appending.start appends).performAll history
    obtain ⟨performed, seen⟩ := appending.performAll_behind [] kept
    have same : m.behind [] = m := rfl
    rw [same] at performed seen
    refine ⟨seen.symm, ?_⟩
    rw [performed]
    rfl
  · intro schema d
    have table_eq : m.table = table := table_performAll _ history
    have again : m.run schema d = (Machine.start table).run schema d := by
      rw [Machine.run, Machine.run, Machine.clear, table_eq]
      rfl
    exact ⟨again, (performAll_rerun m schema d).trans again⟩

/-- A document of a lone key. -/
def loneKey : Document := .build "k" [.leaf .keyName ⟨0, 1⟩]

/-- The unknown name of a lone key is taken before the end, and the missing equals sign is left. -/
theorem taking_before_missing_assign :
    (∀ row ∈ table, row.OnlyAppends) ∧
    let feeds : List Operation := loneKey.cursors.map (.process ⟨.empty, loneKey⟩)
    let m := Machine.start table
    m.taken (feeds ++ [.take, .finish 1]) = [[.warning ⟨0, 1⟩ .keyUnknown]] ∧
    (m.performAll (feeds ++ [.take, .finish 1])).diagnostics = [missingAssign 1] ∧
    (m.taken (feeds ++ [.take, .finish 1])).flatten ++
        (m.performAll (feeds ++ [.take, .finish 1])).diagnostics =
      (m.performAll (feeds ++ [.finish 1])).diagnostics := by
  refine ⟨table_onlyAppends, by decide, by decide, ?_⟩
  apply ((taking_loses_nothing table []).1 table_onlyAppends _ _ _ _).2
  · decide
  · rfl

end Keyfile.Adjacency
