import Keyfile.Analyzer
import Keyfile.Proofs.NamePlans

/-! Questions to the application. Completion may ask at several places, but on each way through it comes to one of
them at most; so it carries out a plan that is made before any answer is known. The answer alone then decides
what is offered, and what is asked about stands in the schema. -/
namespace Keyfile

/-- A question is about an entry that its path leads to, or about the wildcard below such an entry. -/
def Query.Leads (schema : Schema) (query : Query) : Prop :=
  match query.kind with
  | .container => ∃ found, resolve? schema.containers query.path = some found
  | .key => ∃ found, resolve? schema.keys query.path = some found
  | .value => ∃ found, resolve? schema.keys query.path = some found
  | .wildcard => ∃ parent found level wildcard, query.path = parent ++ "." ++ wildcard.value ∧
      resolve? schema.keys parent = some found ∧ found.entry.children = some level ∧
      level.find? (·.isWildcard) = some wildcard

/-- What a plan asks, if it does, is about a part of the schema. -/
def Plan.Leads (schema : Schema) : Plan → Prop
  | .settled _ => True
  | .ask query _ _ _ => query.Leads schema

section Asking
variable (c : Completer)

lemma leads_container (name : String) (span : Span) : (c.container name span).Leads c.schema := by
  obtain ⟨-, last, parents, -, split, -⟩ := exists_last_segment name
  have inside : parents ⊆ segments name := by simp [split]
  have plan : c.ContainerPlan name span parents last (c.container name span) := Completer.containerPlan split
  generalize c.container name span = p at plan ⊢
  cases plan with
  | unnamed | unknown | listed => trivial
  | asked _ resolved => exact ⟨_, resolve?_joinStrings resolved inside⟩

lemma leads_key (name : String) (span : Span) : (c.key name span).Leads c.schema := by
  obtain ⟨-, last, parents, -, split, -⟩ := exists_last_segment name
  have inside : parents ⊆ segments name := by simp [split]
  have plan : c.KeyPlan name span parents last (c.key name span) := Completer.keyPlan split
  generalize c.key name span = p at plan ⊢
  cases plan with
  | unnamed | unknown | listed => trivial
  | askedWildcard _ resolved children _ wild =>
    exact ⟨_, _, _, _, rfl, resolve?_joinStrings resolved inside, children, wild⟩
  | askedKeys _ resolved => exact ⟨_, resolve?_joinStrings resolved inside⟩

lemma leads_value (start : Nat) (key typed : String) : (c.value start key typed).Leads c.schema := by
  unfold Completer.value
  cases resolved : resolve? c.schema.keys key with
  | none => trivial
  | some found =>
    simp only
    split
    · trivial
    · exact ⟨found, resolved⟩

lemma leads_onNode (node : Cursor) : (c.onNode node).Leads c.schema := by
  unfold Completer.onNode
  split
  · exact leads_container c _ _
  · exact leads_key c _ _
  · unfold Completer.afterAssign
    split
    · trivial
    · exact leads_value c _ _ _
  · unfold Completer.onValue
    split
    · trivial
    · exact leads_value c _ _ _

/-- Whatever completion asks is about a part of the schema. -/
lemma leads_atOffset (offset : Nat) : (c.atOffset offset).Leads c.schema := by
  unfold Completer.atOffset
  simp only
  split
  · split
    · unfold Completer.afterGap
      split
      · trivial
      · exact leads_value c _ _ _
    · exact leads_onNode c _
  · exact leads_onNode c _

end Asking

namespace Completer

section Carried
variable {m : Type → Type} {ε : Type} [Monad m] [LawfulMonad m] (c : Completer) (provider : Option (Provider m ε))

/-- To ask and to present the answer is to carry out a plan that asks. -/
lemma run_ask (query : Query) (start : Nat) (stop : Option Nat) (kind : OptionKind) :
    (do let labels ← ask provider query
        return labels.map (.ofLabels start stop kind) : ExceptT ε m (Option Completion)).run =
      (Plan.ask query start stop kind).run provider := by
  cases provider with
  | none => simp [ask, Plan.run]
  | some suggest =>
    rw [ask, bind_assoc, ExceptT.run_bind, Plan.run]
    refine bind_congr fun answer => ?_
    cases answer with
    | error e => rfl
    | ok labels => simp

lemma run_completeContainer (name : String) (span : Span) :
    (c.completeContainer provider name span).run = (c.container name span).run provider := by
  unfold completeContainer container
  dsimp only
  split_ifs with head alone
  · rfl
  · rfl
  cases resolveSegments? c.schema.containers (segments name).dropLast with
  | none => rfl
  | some found =>
    dsimp only
    cases found.entry.children with
    | none => exact run_ask provider _ _ _ _
    | some children => rfl

/-- The two questions of a key are alternatives: behind that for a wildcard nothing is left to do. -/
lemma run_completeKey (name : String) (span : Span) :
    (c.completeKey provider name span).run = (c.key name span).run provider := by
  unfold completeKey key
  dsimp only
  split_ifs with head alone
  · rfl
  · rfl
  cases resolveSegments? c.schema.keys (segments name).dropLast with
  | none => rfl
  | some found =>
    dsimp only
    cases found.entry.children with
    | none => exact run_ask provider _ _ _ _
    | some children =>
      dsimp only
      split_ifs with nothing
      · cases children.find? (·.isWildcard) with
        | none => exact run_ask provider _ _ _ _
        | some wildcard => exact run_ask provider _ _ _ _
      · rfl

lemma run_completeValue (start : Nat) (key typed : String) :
    (c.completeValue provider start key typed).run = (c.value start key typed).run provider := by
  unfold completeValue value
  cases resolve? c.schema.keys key with
  | none => rfl
  | some found =>
    dsimp only
    cases found.entry.info.rule.bind (·.suggestions? c.settings.rangeLimit) with
    | none => exact run_ask provider _ _ _ _
    | some suggestions => rfl

lemma run_completeAfterAssign (node : Cursor) :
    (c.completeAfterAssign provider node).run = (c.afterAssign node).run provider := by
  unfold completeAfterAssign afterAssign
  cases node.prevOfKind? .keyName with
  | none => rfl
  | some key => exact run_completeValue c provider _ _ _

lemma run_completeAfterGap (assign : Cursor) (offset : Nat) :
    (c.completeAfterGap provider assign offset).run = (c.afterGap assign offset).run provider := by
  unfold completeAfterGap afterGap
  cases assign.prevOfKind? .keyName with
  | none => rfl
  | some key => exact run_completeValue c provider _ _ _

lemma run_completeOnValue (node : Cursor) :
    (c.completeOnValue provider node).run = (c.onValue node).run provider := by
  unfold completeOnValue onValue
  cases node.keyOfValue? with
  | none => rfl
  | some key => exact run_completeValue c provider _ _ _

lemma run_completeOnNode (node : Cursor) :
    (c.completeOnNode provider node).run = (c.onNode node).run provider := by
  unfold completeOnNode onNode
  cases node.kind with
  | containerName => exact run_completeContainer c provider _ _
  | keyName => exact run_completeKey c provider _ _
  | assign => exact run_completeAfterAssign c provider _
  | _ => exact run_completeOnValue c provider _

/-- Completion carries out its plan. -/
lemma run_completeAt (offset : Nat) : (c.completeAt provider offset).run = (c.atOffset offset).run provider := by
  unfold completeAt atOffset
  dsimp only
  split_ifs with outside
  · cases assignBefore? c.document offset with
    | none => exact run_completeOnNode c provider _
    | some assign => exact run_completeAfterGap c provider _ _
  · exact run_completeOnNode c provider _

end Carried

end Completer

lemma Analyzer.completeAt_eq_run {m : Type → Type} {ε : Type} [Monad m] [LawfulMonad m] (a : Analyzer)
    (provider : Option (Provider m ε)) (d : Document) (offset : Nat) :
    a.completeAt provider d offset = (a.plan d offset).run provider := by
  unfold Analyzer.completeAt Analyzer.plan
  split_ifs with enabled
  · exact Completer.run_completeAt _ provider offset
  · rfl

section Consulting
variable {ε : Type}

/-- A provider that remembers what it was asked. Its answers may depend on that. -/
def recording (answer : List Query → Query → Except ε (List String)) : Provider (StateM (List Query)) ε :=
  fun query asked => (answer asked query, asked ++ [query])

/-- Completion with a provider that was asked some questions before: the outcome, and all questions that it was
asked up to then. -/
def Completer.consult (c : Completer) (offset : Nat) (answer : List Query → Query → Except ε (List String))
    (before : List Query) : Except ε (Option Completion) × List Query :=
  (c.completeAt (some (recording answer)) offset).run before

/-- A question is asked once, and its answer is passed on. -/
lemma run_ask_recording (query : Query) (start : Nat) (stop : Option Nat) (kind : OptionKind)
    (answer : List Query → Query → Except ε (List String)) (before : List Query) :
    (Plan.ask query start stop kind).run (some (recording answer)) before =
      ((answer before query).map fun labels => some (.ofLabels start stop kind labels), before ++ [query]) := by
  cases outcome : answer before query with
  | error e =>
    simp only [Plan.run, recording, bind, StateT.bind, outcome]
    rfl
  | ok labels =>
    simp only [Plan.run, recording, bind, StateT.bind, outcome]
    rfl

lemma labels_ofLabels (start : Nat) (stop : Option Nat) (kind : OptionKind) (labels : List String) :
    (Completion.ofLabels start stop kind labels).labels = labels := by
  simp [Completion.ofLabels, Completion.labels, Function.comp_def]

end Consulting

/-- Completion comes out the same for all providers and for none, without a question; or it asks one question,
the same for all of them, and offers exactly what is answered. -/
theorem consult_at_most_once (c : Completer) (offset : Nat) :
    (∃ result, ∀ ε : Type,
        (∀ (m : Type → Type) [Monad m] [LawfulMonad m] (provider : Option (Provider m ε)),
          c.completeAt provider offset = pure result) ∧
        ∀ (answer : List Query → Query → Except ε (List String)) before,
          c.consult offset answer before = (.ok result, before)) ∨
      ∃ query start stop kind, query.Leads c.schema ∧
        ∀ ε : Type,
          (∀ (m : Type → Type) [Monad m] [LawfulMonad m],
            c.completeAt (none : Option (Provider m ε)) offset = pure none) ∧
          ∀ (answer : List Query → Query → Except ε (List String)) before,
            (c.consult offset answer before).2 = before ++ [query] ∧
            (∀ e, answer before query = .error e → (c.consult offset answer before).1 = .error e) ∧
            ∀ labels, answer before query = .ok labels →
              ∃ completion, (c.consult offset answer before).1 = .ok (some completion) ∧
                completion.start = start ∧ completion.stop = stop ∧ completion.labels = labels ∧
                ∀ option ∈ completion.options, option.kind = kind := by
  have leads := leads_atOffset c offset
  have carried : ∀ (m : Type → Type) [Monad m] [LawfulMonad m] (ε : Type) (provider : Option (Provider m ε)),
      (c.completeAt provider offset).run = (c.atOffset offset).run provider :=
    fun _ _ _ _ provider => c.run_completeAt provider offset
  unfold Completer.consult
  cases plan : c.atOffset offset with
  | settled result =>
    rw [plan] at carried
    refine .inl ⟨result, fun ε => ⟨fun m _ _ provider => ExceptT.ext (carried m ε provider), ?_⟩⟩
    intro answer before
    rw [carried]
    rfl
  | ask query start stop kind =>
    rw [plan] at leads carried
    refine .inr ⟨query, start, stop, kind, leads, fun ε => ⟨fun m _ _ => ExceptT.ext (carried m ε none), ?_⟩⟩
    intro answer before
    rw [carried, run_ask_recording]
    refine ⟨rfl, ?_, ?_⟩
    · intro e failed
      rw [failed]
      rfl
    · intro labels answered
      rw [answered]
      refine ⟨.ofLabels start stop kind labels, rfl, rfl, rfl, labels_ofLabels start stop kind labels, ?_⟩
      intro option listed
      obtain ⟨label, -, rfl⟩ := List.mem_map.mp listed
      rfl

end Keyfile
