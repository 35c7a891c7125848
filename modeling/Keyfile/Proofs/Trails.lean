import Keyfile.Schema.Lookup
import Mathlib.Tactic.Common

/-! Paths through a schema and the entries passed on them. A path takes one step after the other, each from the
entry passed last. Looking up its end and listing the entries on it take the same steps, and both go on as long
as there is a step to take. -/
namespace Keyfile

/-- The first of a list to have a property. -/
def IsFirst {α : Type} (p : α → Prop) (xs : List α) (x : α) : Prop :=
  ∃ before after, xs = before ++ x :: after ∧ p x ∧ ∀ y ∈ before, ¬p y

lemma find?_eq_some_iff_isFirst {α : Type} {p : α → Bool} {xs : List α} {x : α} :
    xs.find? p = some x ↔ IsFirst (p · = true) xs x := by
  simp only [List.find?_eq_some_iff_append, Bool.not_eq_true', IsFirst, Bool.not_eq_true]
  constructor
  · rintro ⟨has, before, after, split, others⟩
    exact ⟨before, after, split, has, others⟩
  · rintro ⟨before, after, split, has, others⟩
    exact ⟨has, before, after, split, others⟩

section Steps
variable {ι : Type} [HasWildcards ι]

/-- A segment enters the first entry of its name on a level, and the first wildcard only if none has the name. -/
def Enters (level : List (Entry ι)) (segment : String) (e : Entry ι) : Prop :=
  IsFirst (·.value = segment) level e ∨
    (∀ x ∈ level, x.value ≠ segment) ∧ IsFirst (·.isWildcard = true) level e

/-- The steps of a path: to a root of the segment's name where nothing was passed before, and else from the entry
passed last to one of its children. -/
def Reaches (roots : List (Entry ι)) (last? : Option (Entry ι)) (segment : String) (e : Entry ι) : Prop :=
  match last? with
  | none => segment ≠ "" ∧ IsFirst (·.value = segment) roots e
  | some last => ∃ level, last.children = some level ∧ Enters level segment e

/-- The entry that a path reaches with its next segment. -/
def stepFrom? (roots : List (Entry ι)) (last? : Option (Entry ι)) (segment : String) : Option (Entry ι) :=
  match last? with
  | none => startAt? roots segment
  | some last => last.descend? segment

lemma choose?_eq_some_iff {level : List (Entry ι)} {segment : String} {e : Entry ι} :
    choose? level segment = some e ↔ Enters level segment e := by
  rw [choose?, Option.or_eq_some_iff, find?_eq_some_iff_isFirst, find?_eq_some_iff_isFirst, List.find?_eq_none]
  simp only [beq_iff_eq, Enters, ne_eq]

lemma stepFrom?_eq_some_iff {roots : List (Entry ι)} {last? : Option (Entry ι)} {segment : String} {e : Entry ι} :
    stepFrom? roots last? segment = some e ↔ Reaches roots last? segment e := by
  cases last? with
  | none =>
    have named : roots.find? (·.value == segment) = some e ↔ IsFirst (·.value = segment) roots e := by
      simp only [find?_eq_some_iff_isFirst, beq_iff_eq]
    rw [stepFrom?, startAt?, Reaches, ← named]
    by_cases empty : segment = "" <;> simp [empty]
  | some last => simp only [stepFrom?, Entry.descend?, Option.bind_eq_some_iff, choose?_eq_some_iff, Reaches]

/-- The entries that a path passes behind the one passed last. -/
def walk (roots : List (Entry ι)) (last? : Option (Entry ι)) : List String → List (Entry ι)
  | [] => []
  | s :: ss =>
    match stepFrom? roots last? s with
    | none => []
    | some e => e :: walk roots (some e) ss

variable (roots : List (Entry ι))

lemma length_walk_le (last? : Option (Entry ι)) (path : List String) :
    (walk roots last? path).length ≤ path.length := by
  induction path generalizing last? with
  | nil => exact Nat.le_refl _
  | cons s ss ih =>
    rw [walk]
    cases stepFrom? roots last? s with
    | none => simp
    | some e => simpa using ih (some e)

/-- A path that is cut off passes the entries before the cut. -/
lemma walk_take (last? : Option (Entry ι)) (path : List String) (k : Nat) :
    walk roots last? (path.take k) = (walk roots last? path).take k := by
  induction path generalizing last? k with
  | nil => simp [walk]
  | cons s ss ih =>
    cases k with
    | zero => simp [walk]
    | succ k =>
      rw [List.take_succ_cons, walk, walk]
      cases stepFrom? roots last? s with
      | none => rfl
      | some e => exact congrArg (e :: ·) (ih (some e) k)

/-- Every entry passed is reached from the one before it, and nothing is reached behind the last one. -/
structure Passes (last? : Option (Entry ι)) (path : List String) (passed : List (Entry ι)) : Prop where
  entered : ∀ i e, passed[i]? = some e →
    ∃ segment, path[i]? = some segment ∧ Reaches roots ((passed.take i).getLast?.or last?) segment e
  stuck : ∀ segment, path[passed.length]? = some segment →
    ∀ e, ¬Reaches roots (passed.getLast?.or last?) segment e

lemma passes_walk (last? : Option (Entry ι)) (path : List String) :
    Passes roots last? path (walk roots last? path) := by
  induction path generalizing last? with
  | nil => exact ⟨by simp [walk], by simp⟩
  | cons s ss ih =>
    rw [walk]
    cases step : stepFrom? roots last? s with
    | none =>
      refine ⟨by simp, ?_⟩
      rintro segment next e reached
      obtain rfl : s = segment := by simpa using next
      rw [List.getLast?_nil, Option.none_or, ← stepFrom?_eq_some_iff, step] at reached
      cases reached
    | some child =>
      obtain ⟨entered, stuck⟩ := ih (some child)
      -- behind the child, what was passed last is never what it was before it
      have last : ∀ passed : List (Entry ι), (child :: passed).getLast?.or last? = passed.getLast?.or (some child) := by
        intro passed
        cases passed <;> simp [List.getLast?_cons]
      refine ⟨?_, ?_⟩
      · rintro (_ | i) e here
        · obtain rfl : child = e := by simpa using here
          exact ⟨s, rfl, stepFrom?_eq_some_iff.mp step⟩
        · obtain ⟨segment, listed, reached⟩ := entered i e (by simpa using here)
          refine ⟨segment, by simpa using listed, ?_⟩
          rwa [List.take_succ_cons, last]
      · intro segment next
        rw [last]
        exact stuck segment (by simpa using next)

end Steps

section Lookups
variable {ι : Type} [HasWildcards ι] (roots : List (Entry ι))

lemma trail_eq_cons_walk (e : Entry ι) (path : List String) : e.trail path = e :: walk roots (some e) path := by
  induction path generalizing e with
  | nil => rfl
  | cons s ss ih =>
    rw [Entry.trail, walk, stepFrom?]
    cases e.descend? s with
    | none => rfl
    | some child => exact congrArg (e :: ·) (ih child)

lemma follow?_eq_getLast? (e : Entry ι) (path : List String) :
    e.follow? path =
      if (walk roots (some e) path).length = path.length then (e :: walk roots (some e) path).getLast?
      else none := by
  induction path generalizing e with
  | nil => rfl
  | cons s ss ih =>
    rw [Entry.follow?, walk, stepFrom?]
    cases e.descend? s with
    | none => rfl
    | some child => simp [ih child]

lemma trailSegments_longest (path : List String) : trailSegments .longest roots path = walk roots none path := by
  cases path with
  | nil => rfl
  | cons s ss =>
    rw [trailSegments, walk, stepFrom?]
    cases startAt? roots s with
    | none => rfl
    | some root => simp [trail_eq_cons_walk roots]

lemma trailSegments_whole (path : List String) :
    trailSegments .whole roots path =
      if (walk roots none path).length = path.length then walk roots none path else [] := by
  cases path with
  | nil => rfl
  | cons s ss =>
    rw [trailSegments, walk, stepFrom?]
    cases startAt? roots s with
    | none => rfl
    | some root =>
      have short := length_walk_le roots (some root) ss
      simp only [trail_eq_cons_walk roots, List.length_cons, true_and, Nat.add_right_cancel_iff]
      split_ifs
      · omega
      · rfl
      · rfl
      · omega

lemma resolveSegments?_eq_getLast? (path : List String) :
    resolveSegments? roots path =
      if (walk roots none path).length = path.length then
        (walk roots none path).getLast?.map (⟨·, path.length⟩)
      else none := by
  cases path with
  | nil => rfl
  | cons s ss =>
    rw [resolveSegments?, walk, stepFrom?]
    cases startAt? roots s with
    | none => rfl
    | some root =>
      simp only [Option.bind_some, follow?_eq_getLast? roots, List.length_cons, Nat.add_right_cancel_iff]
      split_ifs <;> rfl

/-- The look-up of a path finds an entry exactly if the entries passed are as many as its segments, and then finds
the last of them. The entries passed on a part of the path are a part of those passed on the whole; the first is a
root, each further one a child of the one before, and there are no more only where no step is left. -/
theorem lookups_take_longest_path (path : List String) :
    ((resolveSegments? roots path).isSome = true ↔
        path ≠ [] ∧ (trailSegments .longest roots path).length = path.length) ∧
      (∀ found, resolveSegments? roots path = some found →
        (trailSegments .longest roots path).getLast? = some found.entry ∧ found.consumed = path.length) ∧
      (trailSegments .whole roots path =
        if (resolveSegments? roots path).isSome then trailSegments .longest roots path else []) ∧
      (∀ k, trailSegments .longest roots (path.take k) = (trailSegments .longest roots path).take k) ∧
      Passes roots none path (trailSegments .longest roots path) := by
  have found_iff : (resolveSegments? roots path).isSome = true ↔
      path ≠ [] ∧ (walk roots none path).length = path.length := by
    rw [resolveSegments?_eq_getLast?]
    split_ifs with whole
    · simp [← List.length_pos_iff, whole]
    · simp [whole]
  simp only [trailSegments_longest]
  refine ⟨found_iff, ?_, ?_, walk_take roots none path, passes_walk roots none path⟩
  · intro found resolved
    rw [resolveSegments?_eq_getLast?] at resolved
    split_ifs at resolved
    obtain ⟨e, last, rfl⟩ := Option.map_eq_some_iff.mp resolved
    exact ⟨last, rfl⟩
  · rw [trailSegments_whole]
    simp only [found_iff]
    -- without segments both lists are empty
    cases path with
    | nil => rfl
    | cons s ss => simp

end Lookups
end Keyfile
