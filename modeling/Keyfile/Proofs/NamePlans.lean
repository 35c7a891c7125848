import Keyfile.Completion.Resolve
import Keyfile.Proofs.Paths

/-! What completion of a name can come to. The segments before the last one lead to a level of the schema or to
nowhere; the entries of the level are offered, or the application is asked for the names there. -/
namespace Keyfile

section Levels
variable {ι : Type} [HasWildcards ι] {roots level : List (Entry ι)} {parents : List String}

/-- The level on which the last segment of a name is looked for: the roots if it is the only one, else the
children of the entry that the segments before it lead to. -/
def levelBelow? (roots : List (Entry ι)) (parents : List String) : Option (List (Entry ι)) :=
  if parents = [] then some roots else (resolveSegments? roots parents).bind (·.entry.children)

lemma levelBelow?_roots (alone : parents = []) : levelBelow? roots parents = some roots := if_pos alone

lemma levelBelow?_children {found : Resolved ι} (nested : parents ≠ [])
    (resolved : resolveSegments? roots parents = some found) : levelBelow? roots parents = found.entry.children := by
  rw [levelBelow?, if_neg nested, resolved, Option.bind_some]

lemma levelBelow?_eq_some (nested : parents ≠ []) (h : levelBelow? roots parents = some level) :
    ∃ found, resolveSegments? roots parents = some found ∧ found.entry.children = some level := by
  rw [levelBelow?, if_neg nested] at h
  exact Option.bind_eq_some_iff.mp h

end Levels

namespace Completer

/-- Where the range of the last segment of a name starts. -/
def nameStart (span : Span) (name : String) (parents : List String) (last : String) : Nat :=
  if parents = [] then span.start else segmentStart span name last

/-- What completion of a container name comes to. -/
inductive ContainerPlan (c : Completer) (name : String) (span : Span) (parents : List String) (last : String) :
    Plan → Prop
  /-- No entry has an empty name. -/
  | unnamed (head : (parents ++ [last]).head? = some "") : ContainerPlan c name span parents last (.settled none)
  | unknown (nested : parents ≠ []) (lost : resolveSegments? c.schema.containers parents = none) :
      ContainerPlan c name span parents last (.settled none)
  | listed {level : List ContainerEntry} (head : (parents ++ [last]).head? ≠ some "")
      (below : levelBelow? c.schema.containers parents = some level) :
      ContainerPlan c name span parents last (.settled (some ⟨nameStart span name parents last, some span.stop,
        c.offer last (fun _ => .constant) level⟩))
  /-- An entry without a list of children leaves them to the application. -/
  | asked {found : Resolved Unit} (nested : parents ≠ [])
      (resolved : resolveSegments? c.schema.containers parents = some found) (leaf : found.entry.children = none) :
      ContainerPlan c name span parents last (.ask ⟨.container, joinStrings '.' parents, last⟩
        (nameStart span name parents last) (some span.stop) .constant)

/-- How the keys of a level are presented: on the first one all alike. -/
def levelKind (parents : List String) : KeyEntry → OptionKind := if parents = [] then fun _ => .type else keyKind

/-- An entry of the level holds what was typed. -/
def Finds (c : Completer) (last : String) (level : List KeyEntry) : Prop :=
  ∃ e ∈ level, c.accepts last e.value = true

/-- What completion of a key comes to. -/
inductive KeyPlan (c : Completer) (name : String) (span : Span) (parents : List String) (last : String) :
    Plan → Prop
  | unnamed (head : (parents ++ [last]).head? = some "") : KeyPlan c name span parents last (.settled none)
  | unknown (nested : parents ≠ []) (lost : resolveSegments? c.schema.keys parents = none) :
      KeyPlan c name span parents last (.settled none)
  | listed {level : List KeyEntry} (head : (parents ++ [last]).head? ≠ some "")
      (below : levelBelow? c.schema.keys parents = some level) (finds : parents = [] ∨ c.Finds last level) :
      KeyPlan c name span parents last (.settled (some ⟨nameStart span name parents last, some span.stop,
        c.offer last (levelKind parents) level⟩))
  /-- Where no entry matches, the application knows the names that a wildcard stands for. -/
  | askedWildcard {found : Resolved KeyInfo} {level : List KeyEntry} {wildcard : KeyEntry} (nested : parents ≠ [])
      (resolved : resolveSegments? c.schema.keys parents = some found) (children : found.entry.children = some level)
      (none_found : ¬c.Finds last level) (wild : level.find? (·.isWildcard) = some wildcard) :
      KeyPlan c name span parents last
        (.ask ⟨.wildcard, joinStrings '.' parents ++ "." ++ wildcard.value, last⟩
          (nameStart span name parents last) (some span.stop) .type)
  /-- Without a wildcard it knows the further keys. -/
  | askedKeys {found : Resolved KeyInfo} (nested : parents ≠ [])
      (resolved : resolveSegments? c.schema.keys parents = some found)
      (none_found : ∀ level ∈ found.entry.children,
        ¬c.Finds last level ∧ level.find? (·.isWildcard) = none) :
      KeyPlan c name span parents last (.ask ⟨.key, joinStrings '.' parents, last⟩
        (nameStart span name parents last) (some span.stop) .type)

variable {c : Completer} {name last : String} {span : Span} {parents : List String}

lemma containerPlan (split : segments name = parents ++ [last]) :
    c.ContainerPlan name span parents last (c.container name span) := by
  simp only [container, split, List.getLastD_concat, List.dropLast_concat, List.isEmpty_iff]
  split_ifs with head alone
  · exact .unnamed head
  · have start : nameStart span name parents last = span.start := if_pos alone
    rw [← start]
    exact .listed head (levelBelow?_roots alone)
  · have start : nameStart span name parents last = segmentStart span name last := if_neg alone
    rw [← start]
    cases resolved : resolveSegments? c.schema.containers parents with
    | none => exact .unknown alone resolved
    | some found =>
      cases children : found.entry.children with
      | none =>
        simp only [children]
        exact .asked alone resolved children
      | some level =>
        simp only [children]
        exact .listed head ((levelBelow?_children alone resolved).trans children)

lemma offer_eq_nil_iff {typed : String} {kind : KeyEntry → OptionKind} {level : List KeyEntry} :
    c.offer typed kind level = [] ↔ ¬c.Finds typed level := by
  simp [offer, Finds]

lemma keyPlan (split : segments name = parents ++ [last]) : c.KeyPlan name span parents last (c.key name span) := by
  simp only [key, split, List.getLastD_concat, List.dropLast_concat, List.isEmpty_iff]
  split_ifs with head alone
  · exact .unnamed head
  · have start : nameStart span name parents last = span.start := if_pos alone
    have kind : (fun _ => .type) = levelKind parents := (if_pos alone).symm
    rw [← start, kind]
    exact .listed head (levelBelow?_roots alone) (.inl alone)
  · have start : nameStart span name parents last = segmentStart span name last := if_neg alone
    have kind : keyKind = levelKind parents := (if_neg alone).symm
    rw [← start, kind]
    cases resolved : resolveSegments? c.schema.keys parents with
    | none => exact .unknown alone resolved
    | some found =>
      cases children : found.entry.children with
      | none =>
        simp only [children]
        exact .askedKeys alone resolved (by simp [children])
      | some level =>
        simp only [children]
        split
        next nothing =>
          have none_found := offer_eq_nil_iff.mp nothing
          cases wild : level.find? (·.isWildcard) with
          | none =>
            refine .askedKeys alone resolved ?_
            intro other listed
            obtain rfl := Option.some.inj (children.symm.trans listed)
            exact ⟨none_found, wild⟩
          | some wildcard => exact .askedWildcard alone resolved children none_found wild
        next something =>
          exact .listed head ((levelBelow?_children alone resolved).trans children)
            (.inr (not_not.mp (mt offer_eq_nil_iff.mpr something)))

end Completer

end Keyfile
