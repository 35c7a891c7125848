import Keyfile.Proofs.ReplacedSegment
import Mathlib.Data.List.Forall2
import Mathlib.Data.List.Infix

/-! The options for a name. They are the entries of one level of the schema that hold what was typed, in the order
of the schema, so typing more only takes options away. Keys that stand for any name are marked on every level but
the first. -/
namespace Keyfile

section Matching

lemma occursIn_iff {α : Type} [BEq α] [LawfulBEq α] {part xs : List α} : occursIn part xs = true ↔ part <:+: xs := by
  induction xs with
  | nil => simp [occursIn]
  | cons x xs ih => rw [occursIn, Bool.or_eq_true, List.isPrefixOf_iff_prefix, ih, List.infix_cons_iff]

/-- The text stands as one stretch in another one. -/
def HoldsPart (whole part : String) : Prop := ∃ before after, whole = before ++ part ++ after

lemma holdsPart_iff {whole part : String} : HoldsPart whole part ↔ part.toList <:+: whole.toList := by
  constructor
  · rintro ⟨before, after, rfl⟩
    exact ⟨before.toList, after.toList, by simp⟩
  · rintro ⟨before, after, chars⟩
    refine ⟨String.ofList before, String.ofList after, String.toList_inj.mp ?_⟩
    simpa using chars.symm

lemma HoldsPart.trans {a b c : String} (h : HoldsPart a b) (h' : HoldsPart b c) : HoldsPart a c :=
  holdsPart_iff.mpr ((holdsPart_iff.mp h').trans (holdsPart_iff.mp h))

/-- Two texts agree character by character, up to case. -/
def SameFolded (a b : String) : Prop :=
  List.Forall₂ (fun x y => Text.foldCase x = Text.foldCase y) a.toList b.toList

lemma sameFolded_iff {a b : String} :
    SameFolded a b ↔ a.toList.map Text.foldCase = b.toList.map Text.foldCase := by
  rw [SameFolded, ← List.forall₂_eq_eq_eq, List.forall₂_map_left_iff, List.forall₂_map_right_iff]

variable {typed candidate : String}

lemma matchesTyped_false_iff : matchesTyped false typed candidate = true ↔ HoldsPart candidate typed := by
  rw [holdsPart_iff]
  exact occursIn_iff

lemma matchesTyped_folded_iff :
    matchesTyped true typed candidate = true ↔
      typed.toList.map Text.foldCase <:+: candidate.toList.map Text.foldCase := occursIn_iff

/-- Without regard to case, a stretch of the candidate agrees with what was typed up to case. -/
lemma matchesTyped_true_iff :
    matchesTyped true typed candidate = true ↔ ∃ part, HoldsPart candidate part ∧ SameFolded typed part := by
  rw [matchesTyped_folded_iff]
  constructor
  · rintro ⟨before, after, chars⟩
    obtain ⟨front, back, split, first, -⟩ := List.map_eq_append_iff.mp chars.symm
    obtain ⟨head, part, rfl, -, same⟩ := List.map_eq_append_iff.mp first
    refine ⟨String.ofList part, holdsPart_iff.mpr ⟨head, back, ?_⟩, sameFolded_iff.mpr ?_⟩
    · rw [String.toList_ofList, split]
    · rw [String.toList_ofList, same]
  · rintro ⟨part, held, same⟩
    rw [sameFolded_iff.mp same]
    exact (holdsPart_iff.mp held).map _

lemma holdsPart_refl (text : String) : HoldsPart text text := ⟨"", "", by simp⟩

/-- Every candidate holds itself. -/
lemma matchesTyped_self (ignoreCase : Bool) (candidate : String) :
    matchesTyped ignoreCase candidate candidate = true := by
  cases ignoreCase with
  | false => exact matchesTyped_false_iff.mpr (holdsPart_refl candidate)
  | true => exact matchesTyped_true_iff.mpr ⟨candidate, holdsPart_refl candidate, sameFolded_iff.mpr rfl⟩

lemma matchesTyped_true_of_false (h : matchesTyped false typed candidate = true) :
    matchesTyped true typed candidate = true :=
  matchesTyped_true_iff.mpr ⟨typed, matchesTyped_false_iff.mp h, sameFolded_iff.mpr rfl⟩

/-- A candidate that holds a text holds all parts of it. -/
lemma matchesTyped_of_holdsPart {ignoreCase : Bool} {less more : String} (part : HoldsPart more less)
    (h : matchesTyped ignoreCase more candidate = true) : matchesTyped ignoreCase less candidate = true := by
  cases ignoreCase with
  | false => exact matchesTyped_false_iff.mpr ((matchesTyped_false_iff.mp h).trans part)
  | true =>
    have folded : less.toList.map Text.foldCase <:+: more.toList.map Text.foldCase :=
      (holdsPart_iff.mp part).map _
    exact matchesTyped_folded_iff.mpr (folded.trans (matchesTyped_folded_iff.mp h))

end Matching

section Levels
variable {ι : Type} [HasWildcards ι] {roots level : List (Entry ι)} {parents : List String}

/-- No name that leads to an entry starts with an empty segment. -/
lemma head?_of_resolveSegments? {found : Resolved ι} (h : resolveSegments? roots parents = some found)
    (last : String) : (parents ++ [last]).head? ≠ some "" := by
  cases parents with
  | nil => cases h
  | cons first rest =>
    rintro ⟨⟩
    simp [resolveSegments?, startAt?] at h

lemma head?_of_levelBelow? {name last : String} (split : segments name = parents ++ [last]) (named : name ≠ "")
    (h : levelBelow? roots parents = some level) : (parents ++ [last]).head? ≠ some "" := by
  by_cases alone : parents = []
  · subst alone
    obtain ⟨front, segment, single⟩ := lastSegment_of_segments split
    rw [single rfl] at segment
    rintro ⟨⟩
    exact named segment.parted
  · obtain ⟨found, resolved, -⟩ := levelBelow?_eq_some alone h
    exact head?_of_resolveSegments? resolved last

end Levels

section Containers
variable {c : Completer} {name last : String} {parents : List String} {level : List ContainerEntry}

/-- Where the level of a container name is known, its entries are offered, and nobody is asked. -/
lemma options_container (split : segments name = parents ++ [last]) (named : name ≠ "")
    (below : levelBelow? c.schema.containers parents = some level) (span : Span) :
    ∃ completion, c.container name span = .settled (some completion) ∧
      completion.options = c.offer last (fun _ => .constant) level := by
  have plan : c.ContainerPlan name span parents last (c.container name span) := Completer.containerPlan split
  generalize c.container name span = p at plan ⊢
  cases plan with
  | unnamed head => exact absurd head (head?_of_levelBelow? split named below)
  | unknown nested lost =>
    obtain ⟨found, resolved, -⟩ := levelBelow?_eq_some nested below
    rw [lost] at resolved
    cases resolved
  | listed _ same =>
    obtain rfl := Option.some.inj (same.symm.trans below)
    exact ⟨_, rfl, rfl⟩
  | asked nested resolved leaf =>
    rw [levelBelow?_children nested resolved, leaf] at below
    cases below

/-- The cursor is on a container name with these segments. The name is not empty, as none is that a scan finds. -/
structure Completer.OnContainer (c : Completer) (offset : Nat) (parents : List String) (last : String) : Prop where
  kind : (c.document.innermost offset .before).kind = .containerName
  named : c.document.textOf (c.document.innermost offset .before) ≠ ""
  split : segments (c.document.textOf (c.document.innermost offset .before)) = parents ++ [last]

lemma Completer.OnContainer.options {offset : Nat} (h : c.OnContainer offset parents last)
    (below : levelBelow? c.schema.containers parents = some level) :
    ∃ completion, c.atOffset offset = .settled (some completion) ∧
      completion.options = c.offer last (fun _ => .constant) level := by
  simp only [Completer.atOffset, Completer.onNode, h.kind, reduceCtorEq, if_false]
  exact options_container h.split h.named below _

/-- More typed text leaves fewer of the same options. -/
lemma offer_sublist {ι : Type} {c c' : Completer} (same : c'.settings = c.settings) {less more : String}
    (part : HoldsPart more less) (kind : Entry ι → OptionKind) (entries : List (Entry ι)) :
    (c'.offer more kind entries).Sublist (c.offer less kind entries) := by
  apply List.Sublist.map
  apply List.monotone_filter_right
  intro e accepted
  rw [Completer.accepts, same] at accepted
  exact matchesTyped_of_holdsPart part accepted

/-- A container name in a scanned text is not empty. -/
lemma textOf_innermost_ne_empty {text : String} {offset : Nat}
    (kind : ((scan text).innermost offset .before).kind = .containerName) :
    (scan text).textOf ((scan text).innermost offset .before) ≠ "" := by
  intro empty
  obtain ⟨-, low, high, a, _, -, start, stop⟩ := name_around rfl (by rw [kind]; rfl)
  rw [empty, String.append_empty] at stop
  omega

/-- Typing more only narrows. The candidates that hold a text are among those that hold a part of it, with or
without regard to case. With regard to case the text stands in the candidate as it is, without it up to case, so
that regard to case narrows too. And what is offered for a container name narrows with its last segment. -/
theorem typing_more_narrows :
    (∀ (ignoreCase : Bool) (p q : String) (candidates : List String), HoldsPart q p →
      (candidates.filter (matchesTyped ignoreCase q)).Sublist (candidates.filter (matchesTyped ignoreCase p))) ∧
    (∀ p candidate, matchesTyped false p candidate = true → matchesTyped true p candidate = true) ∧
    (∀ p candidate, matchesTyped false p candidate = true ↔ HoldsPart candidate p) ∧
    (∀ p candidate, matchesTyped true p candidate = true ↔
      ∃ part, HoldsPart candidate part ∧ SameFolded p part) ∧
    (∀ ignoreCase candidate, matchesTyped ignoreCase candidate candidate = true) ∧
    (∀ (schema : Schema) (settings : CompletionSettings) (d d' : Document) (offset offset' : Nat)
        (parents : List String) (p q : String) (level : List ContainerEntry),
      levelBelow? schema.containers parents = some level →
      Completer.OnContainer ⟨schema, settings, d⟩ offset parents p →
      Completer.OnContainer ⟨schema, settings, d'⟩ offset' parents q → HoldsPart q p →
      ∃ wide narrow, Completer.atOffset ⟨schema, settings, d⟩ offset = .settled (some wide) ∧
        Completer.atOffset ⟨schema, settings, d'⟩ offset' = .settled (some narrow) ∧
        narrow.options.Sublist wide.options) ∧
    ∀ (text : String) (offset : Nat), ((scan text).innermost offset .before).kind = .containerName →
      (scan text).textOf ((scan text).innermost offset .before) ≠ "" := by
  refine ⟨?_, ?_, ?_, ?_, matchesTyped_self, ?_, ?_⟩
  · intro ignoreCase p q candidates part
    exact List.monotone_filter_right _ fun candidate => matchesTyped_of_holdsPart part
  · intro p candidate
    exact matchesTyped_true_of_false
  · intro p candidate
    exact matchesTyped_false_iff
  · intro p candidate
    exact matchesTyped_true_iff
  · intro schema settings d d' offset offset' parents p q level below first second part
    obtain ⟨wide, planned, offered⟩ := first.options below
    obtain ⟨narrow, planned', offered'⟩ := second.options below
    refine ⟨wide, narrow, planned, planned', ?_⟩
    rw [offered, offered']
    exact offer_sublist rfl part _ level
  · intro text offset
    exact textOf_innermost_ne_empty

/-- A container with three others below it. -/
def starredContainers : Schema :=
  ⟨[⟨"main", "Main", (), some [⟨"bs*", "Starred", (), none⟩, ⟨"*", "All", (), none⟩, ⟨"S", "Plain", (), none⟩]⟩], []⟩

/-- A long s is two bytes and agrees with an s of one byte, and a star is no more than a star. -/
theorem typing_more_narrows_starred :
    Completer.atOffset ⟨starredContainers, ⟨10, true⟩, scan "[main.ſ"⟩ 8 =
        .settled (some ⟨6, some 8, [⟨"bs*", some "Starred", .constant⟩, ⟨"S", some "Plain", .constant⟩]⟩) ∧
      Completer.atOffset ⟨starredContainers, ⟨10, true⟩, scan "[main.ſ*"⟩ 7 =
        .settled (some ⟨6, some 9, [⟨"bs*", some "Starred", .constant⟩]⟩) ∧
      ∃ wide narrow, Completer.atOffset ⟨starredContainers, ⟨10, true⟩, scan "[main.ſ"⟩ 8 = .settled (some wide) ∧
        Completer.atOffset ⟨starredContainers, ⟨10, true⟩, scan "[main.ſ*"⟩ 7 = .settled (some narrow) ∧
        narrow.options.Sublist wide.options := by
  have first : Completer.OnContainer ⟨starredContainers, ⟨10, true⟩, scan "[main.ſ"⟩ 8 ["main"] "ſ" := by
    rw [scan_eq_within]
    exact ⟨by decide +kernel, by decide +kernel, by decide +kernel⟩
  have second : Completer.OnContainer ⟨starredContainers, ⟨10, true⟩, scan "[main.ſ*"⟩ 7 ["main"] "ſ*" := by
    rw [scan_eq_within]
    exact ⟨by decide +kernel, by decide +kernel, by decide +kernel⟩
  refine ⟨by rw [scan_eq_within]; decide +kernel, by rw [scan_eq_within]; decide +kernel, ?_⟩
  exact typing_more_narrows.2.2.2.2.2.1 _ _ _ _ _ _ _ _ _ _ rfl first second ⟨"", "*", by decide +kernel⟩

end Containers

section Keys
variable {c : Completer} {name last : String} {span : Span} {parents : List String}

/-- A key is settled with options exactly if it has some on its level. -/
lemma settled_key_iff (split : segments name = parents ++ [last]) :
    (∃ completion, c.key name span = .settled (some completion)) ↔
      (parents ++ [last]).head? ≠ some "" ∧
        ∃ level, levelBelow? c.schema.keys parents = some level ∧ (parents = [] ∨ c.Finds last level) := by
  have plan : c.KeyPlan name span parents last (c.key name span) := Completer.keyPlan split
  generalize c.key name span = p at plan ⊢
  cases plan with
  | unnamed head => simp [head]
  | unknown nested lost => simp [levelBelow?, nested, lost]
  | listed head below finds => exact iff_of_true ⟨_, rfl⟩ ⟨head, _, below, finds⟩
  | askedWildcard nested resolved children none_found =>
    simp [levelBelow?_children nested resolved, children, nested, none_found]
  | askedKeys nested resolved none_found =>
    apply iff_of_false
    · rintro ⟨completion, same⟩
      cases same
    · rintro ⟨-, level, below, alone | finds⟩
      · exact nested alone
      · rw [levelBelow?_children nested resolved] at below
        exact (none_found level below).1 finds

lemma options_key {completion : Completion} (split : segments name = parents ++ [last])
    (h : c.key name span = .settled (some completion)) :
    ∃ level, levelBelow? c.schema.keys parents = some level ∧
      completion.options = c.offer last (Completer.levelKind parents) level := by
  have plan : c.KeyPlan name span parents last (c.key name span) := Completer.keyPlan split
  rw [h] at plan
  cases plan with
  | listed _ below => exact ⟨_, below, rfl⟩

/-- An option shows an entry: its name, its title, and whether it stands for any name. -/
structure CompletionOption.Shows (option : CompletionOption) (e : KeyEntry) : Prop where
  label : option.label = e.value
  detail : option.detail = some e.title
  kind : option.kind = if e.isWildcard then .wildcard else .type

/-- Presented as a plain key, an entry is shown as it should be exactly if it is one. -/
lemma shows_type_iff (e : KeyEntry) :
    CompletionOption.Shows ⟨e.value, some e.title, .type⟩ e ↔ e.isWildcard = false := by
  constructor
  · intro shows
    by_contra wildcard
    have kind := shows.kind
    rw [if_pos (by simpa using wildcard)] at kind
    cases kind
  · intro plain
    exact ⟨rfl, rfl, by rw [plain]; rfl⟩

/-- A key is completed exactly if its first segment is not empty, its level is known and an entry of the level
holds what was typed, which does not matter on the first level. The options are the entries of the level that do,
in the order of the schema, each with its name and title. They show which of them stand for any name exactly if none
does or the level is not the first one: on the first level all options are presented as plain keys. -/
theorem key_options_show_iff {ε : Type} (c : Completer) {offset : Nat}
    (key : (c.document.innermost offset .before).kind = .keyName) :
    ∃ parents last,
      segments (c.document.textOf (c.document.innermost offset .before)) = parents ++ [last] ∧
      ((∃ completion, (c.atOffset offset).run (none : Option (Provider Id ε)) = pure (.ok (some completion))) ↔
        (parents ++ [last]).head? ≠ some "" ∧
          ∃ level, levelBelow? c.schema.keys parents = some level ∧ (parents = [] ∨ c.Finds last level)) ∧
      ∀ completion, (c.atOffset offset).run (none : Option (Provider Id ε)) = pure (.ok (some completion)) →
        ∃ level, levelBelow? c.schema.keys parents = some level ∧
          completion.options.map (fun o => (o.label, o.detail)) =
            (level.filter fun e => c.accepts last e.value).map (fun e => (e.value, some e.title)) ∧
          (parents = [] → ∀ o ∈ completion.options, o.kind = .type) ∧
          (List.Forall₂ CompletionOption.Shows completion.options
              (level.filter fun e => c.accepts last e.value) ↔
            parents ≠ [] ∨ ∀ e ∈ level.filter fun e => c.accepts last e.value, e.isWildcard = false) := by
  have plan : c.atOffset offset = c.key (c.document.textOf (c.document.innermost offset .before))
      (c.document.innermost offset .before).span := by
    simp only [Completer.atOffset, Completer.onNode, key, reduceCtorEq, if_false]
  obtain ⟨-, last, parents, -, split, -⟩ :=
    exists_last_segment (c.document.textOf (c.document.innermost offset .before))
  rw [plan]
  refine ⟨parents, last, split, ?_, ?_⟩
  · rw [← settled_key_iff split]
    constructor
    · rintro ⟨completion, offered⟩
      exact ⟨completion, Plan.settled_of_run offered⟩
    · rintro ⟨completion, settled⟩
      exact ⟨completion, by rw [settled]; rfl⟩
  · intro completion offered
    obtain ⟨level, below, options⟩ := options_key split (Plan.settled_of_run offered)
    refine ⟨level, below, ?_, ?_, ?_⟩
    · rw [options, Completer.offer, List.map_map]
      rfl
    · rintro rfl o listed
      rw [options, Completer.offer, List.mem_map] at listed
      obtain ⟨e, -, rfl⟩ := listed
      rfl
    · rw [options, Completer.offer, Completer.levelKind, List.forall₂_map_left_iff, List.forall₂_same]
      by_cases alone : parents = []
      · simp only [alone, if_true, shows_type_iff, ne_eq, not_true_eq_false, false_or]
      · simp only [alone, if_false, ne_eq, not_false_eq_true, true_or, iff_true]
        exact fun e _ => ⟨rfl, rfl, rfl⟩

/-- A key that stands for any name, with such a key and a plain one below it. -/
def anyKeys : Schema :=
  ⟨[], [⟨"any", "Any", ⟨.wildcard, none⟩, some
    [⟨"many", "Many", ⟨.value, none⟩, none⟩, ⟨"any", "Any below", ⟨.wildcard, none⟩, none⟩]⟩]⟩

/-- Below the first level the options show which of them stands for any name. -/
theorem key_options_show_iff_below_any :
    Completer.atOffset ⟨anyKeys, ⟨256, true⟩, scan "any.AN"⟩ 6 = .settled (some ⟨4, some 6,
        [⟨"many", some "Many", .type⟩, ⟨"any", some "Any below", .wildcard⟩]⟩) ∧
      ∃ last level, segments "any.AN" = ["any", last] ∧ levelBelow? anyKeys.keys ["any"] = some level ∧
        List.Forall₂ CompletionOption.Shows
          [⟨"many", some "Many", .type⟩, ⟨"any", some "Any below", .wildcard⟩]
          (level.filter fun e => matchesTyped true last e.value) := by
  have planned : Completer.atOffset ⟨anyKeys, ⟨256, true⟩, scan "any.AN"⟩ 6 = .settled (some ⟨4, some 6,
      [⟨"many", some "Many", .type⟩, ⟨"any", some "Any below", .wildcard⟩]⟩) := by
    rw [scan_eq_within]
    decide +kernel
  have key : ((scan "any.AN").innermost 6 .before).kind = .keyName := by
    rw [scan_eq_within]
    decide +kernel
  have name : (scan "any.AN").textOf ((scan "any.AN").innermost 6 .before) = "any.AN" := by
    rw [scan_eq_within]
    decide +kernel
  have parts : segments "any.AN" = ["any"] ++ ["AN"] := by decide +kernel
  obtain ⟨parents, last, split, -, options⟩ :=
    key_options_show_iff (ε := Unit) ⟨anyKeys, ⟨256, true⟩, scan "any.AN"⟩ key
  rw [name, parts] at split
  obtain ⟨rfl, same⟩ := List.append_inj' split rfl
  obtain ⟨level, below, -, -, shown⟩ := options _ (congrArg (Plan.run none) planned)
  exact ⟨planned, last, level, parts.trans (congrArg (_ ++ ·) same), below, shown.mpr (.inl (List.cons_ne_nil _ _))⟩

/-- On the first level an option does not show that its entry stands for any name. -/
theorem key_options_first_level_unmarked :
    ∃ completion, (Completer.atOffset ⟨anyKeys, ⟨256, true⟩, scan "a"⟩ 1).run (none : Option (Provider Id Unit)) =
        pure (.ok (some completion)) ∧
      ¬List.Forall₂ CompletionOption.Shows completion.options
        (anyKeys.keys.filter fun e => matchesTyped true "a" e.value) := by
  have planned : Completer.atOffset ⟨anyKeys, ⟨256, true⟩, scan "a"⟩ 1 =
      .settled (some ⟨0, some 1, [⟨"any", some "Any", .type⟩]⟩) := by
    rw [scan_eq_within]
    decide +kernel
  refine ⟨_, congrArg (Plan.run none) planned, ?_⟩
  intro shown
  rw [anyKeys, List.filter_cons_of_pos (by decide +kernel)] at shown
  obtain ⟨shows, -⟩ := List.forall₂_cons.mp shown
  exact absurd shows.kind (by decide)

end Keys

end Keyfile
