import Keyfile.Hover
import Keyfile.Proofs.Trails

/-! Dotted names and where they lead. A name is known by its segments; with another last segment it leads one
step from where its other segments lead. -/
namespace Keyfile

namespace Text

lemma pieces_of_notMem {sep : Char} {cs : List Char} (h : sep ∉ cs) : pieces sep cs = [cs] := by
  induction cs with
  | nil => rfl
  | cons c cs ih =>
    rw [List.mem_cons, not_or] at h
    rw [pieces, if_neg (Ne.symm h.1), ih h.2]
    rfl

lemma pieces_append_cons {sep : Char} {cs : List Char} (h : sep ∉ cs) (rest : List Char) :
    pieces sep (cs ++ sep :: rest) = cs :: pieces sep rest := by
  induction cs with
  | nil => rw [List.nil_append, pieces, if_pos rfl]
  | cons c cs ih =>
    rw [List.mem_cons, not_or] at h
    rw [List.cons_append, pieces, if_neg (Ne.symm h.1), ih h.2]
    rfl

lemma notMem_of_mem_pieces {sep : Char} {cs part : List Char} (h : part ∈ pieces sep cs) : sep ∉ part := by
  induction cs generalizing part with
  | nil =>
    obtain rfl : part = [] := by simpa [pieces] using h
    simp
  | cons c cs ih =>
    rw [pieces] at h
    split at h
    next =>
      rcases List.mem_cons.mp h with rfl | h
      · simp
      · exact ih h
    next other =>
      obtain ⟨first, rest, split⟩ := List.exists_cons_of_ne_nil (pieces_ne_nil sep cs)
      rw [split] at ih h
      rcases List.mem_cons.mp h with rfl | h
      · rw [List.mem_cons, not_or]
        exact ⟨Ne.symm other, ih List.mem_cons_self⟩
      · exact ih (List.mem_cons_of_mem _ h)

/-- Pieces put together are found again. -/
lemma pieces_joined {sep : Char} {parts : List (List Char)} (nonempty : parts ≠ [])
    (plain : ∀ part ∈ parts, sep ∉ part) : pieces sep (joined sep parts) = parts := by
  induction parts with
  | nil => exact absurd rfl nonempty
  | cons part parts ih =>
    cases parts with
    | nil => simpa [joined] using pieces_of_notMem (plain part (by simp))
    | cons next parts =>
      have later := ih (by simp) fun x hx => plain x (List.mem_cons_of_mem _ hx)
      rw [joined_cons_cons, pieces_append_cons (plain part (by simp)), later]

/-- A text is its pieces put together. -/
lemma joined_pieces (sep : Char) (cs : List Char) : joined sep (pieces sep cs) = cs := by
  induction cs with
  | nil => rfl
  | cons c cs ih =>
    obtain ⟨first, rest, split⟩ := List.exists_cons_of_ne_nil (pieces_ne_nil sep cs)
    rw [split] at ih
    rw [pieces, split]
    split
    next separator => rw [joined_cons_cons, ih, separator, List.nil_append]
    next =>
      rw [List.headD_cons, List.tail_cons]
      cases rest with
      | nil => simpa [joined] using ih
      | cons next rest => rw [joined_cons_cons] at ih ⊢; rw [List.cons_append, ih]

lemma joined_concat (sep : Char) {parts : List (List Char)} (nonempty : parts ≠ []) (last : List Char) :
    joined sep (parts ++ [last]) = joined sep parts ++ sep :: last := by
  induction parts with
  | nil => exact absurd rfl nonempty
  | cons part parts ih =>
    cases parts with
    | nil => simp [joined, List.intercalate_cons_cons]
    | cons next parts =>
      have later := ih (by simp)
      rw [List.cons_append, List.cons_append, joined_cons_cons, joined_cons_cons, ← List.cons_append, later]
      simp

/-- The last piece of a text can be replaced. -/
lemma exists_last_piece (sep : Char) (cs : List Char) :
    ∃ front last parents, cs = front ++ last ∧ pieces sep cs = parents ++ [last] ∧
      (parents = [] → front = []) ∧
      ∀ other, sep ∉ other → pieces sep (front ++ other) = parents ++ [other] := by
  induction cs with
  | nil => exact ⟨[], [], [], rfl, rfl, fun _ => rfl, fun other h => pieces_of_notMem h⟩
  | cons c cs ih =>
    obtain ⟨front, last, parents, rfl, split, alone, replaced⟩ := ih
    by_cases separator : c = sep
    · subst separator
      refine ⟨c :: front, last, [] :: parents, rfl, ?_, by simp, ?_⟩
      · rw [pieces, if_pos rfl, split]
        rfl
      · intro other h
        rw [List.cons_append, pieces, if_pos rfl, replaced other h]
        rfl
    · cases parents with
      | nil =>
        obtain rfl := alone rfl
        refine ⟨[], c :: last, [], rfl, ?_, fun _ => rfl, fun other h => pieces_of_notMem h⟩
        rw [pieces, if_neg separator, split]
        rfl
      | cons parent parents =>
        refine ⟨c :: front, last, (c :: parent) :: parents, rfl, ?_, by simp, ?_⟩
        · rw [pieces, if_neg separator, split]
          rfl
        · intro other h
          rw [List.cons_append, pieces, if_neg separator, replaced other h]
          rfl

end Text

lemma segments_ne_nil (path : String) : segments path ≠ [] := by
  simp [segments, splitString, Text.pieces_ne_nil]

/-- The last segment of a name can be replaced. -/
lemma exists_last_segment (name : String) :
    ∃ front last parents, name = front ++ last ∧ segments name = parents ++ [last] ∧
      (parents = [] → front = "") ∧
      ∀ other : String, '.' ∉ other.toList → segments (front ++ other) = parents ++ [other] := by
  obtain ⟨front, last, parents, whole, split, alone, replaced⟩ := Text.exists_last_piece '.' name.toList
  refine ⟨String.ofList front, String.ofList last, parents.map String.ofList, ?_, ?_, ?_, ?_⟩
  · rw [← String.ofList_append, ← whole, String.ofList_toList]
  · rw [segments, splitString, split, List.map_append]
    rfl
  · intro none
    rw [alone (by simpa using none), String.ofList_nil]
  · intro other h
    rw [segments, splitString, String.toList_append, String.toList_ofList, replaced _ h, List.map_append]
    simp

lemma segments_joinStrings {name : String} {parents : List String} (nonempty : parents ≠ [])
    (sublist : parents ⊆ segments name) : segments (joinStrings '.' parents) = parents := by
  have plain : ∀ part ∈ parents.map String.toList, '.' ∉ part := by
    intro part member
    obtain ⟨segment, listed, rfl⟩ := List.mem_map.mp member
    obtain ⟨chars, piece, rfl⟩ := List.mem_map.mp (sublist listed)
    rw [String.toList_ofList]
    exact Text.notMem_of_mem_pieces piece
  rw [segments, splitString, joinStrings, String.toList_ofList,
    Text.pieces_joined (by simpa using nonempty) plain, List.map_map]
  simp [Function.comp_def]

section Lookup
variable {ι : Type}

lemma find?_value_of_mem {level : List (Entry ι)} {e : Entry ι} (h : e ∈ level) :
    ∃ found, level.find? (·.value == e.value) = some found ∧ found.value = e.value := by
  have listed : (level.find? (·.value == e.value)).isSome = true := by
    rw [List.find?_isSome]
    exact ⟨e, h, by simp⟩
  obtain ⟨found, hf⟩ := Option.isSome_iff_exists.mp listed
  exact ⟨found, hf, by simpa using List.find?_some hf⟩

variable [HasWildcards ι]

/-- A listed name is found before any wildcard. -/
lemma choose?_of_mem {level : List (Entry ι)} {e : Entry ι} (h : e ∈ level) :
    ∃ found, choose? level e.value = some found ∧ found.value = e.value := by
  obtain ⟨found, first, named⟩ := find?_value_of_mem h
  exact ⟨found, by rw [choose?, first]; rfl, named⟩

lemma Entry.follow?_concat (e : Entry ι) (path : List String) (segment : String) :
    e.follow? (path ++ [segment]) = (e.follow? path).bind (·.descend? segment) := by
  induction path generalizing e with
  | nil =>
    simp only [List.nil_append, Entry.follow?, Option.bind_some]
    cases e.descend? segment <;> rfl
  | cons s path ih =>
    simp only [List.cons_append, Entry.follow?]
    cases e.descend? s with
    | none => rfl
    | some child => exact ih child

/-- A root is found by its name. -/
lemma resolveSegments?_root {roots : List (Entry ι)} {e : Entry ι} (h : e ∈ roots) (nonempty : e.value ≠ "") :
    ∃ found, resolveSegments? roots [e.value] = some found ∧ found.entry.value = e.value := by
  obtain ⟨found, first, named⟩ := find?_value_of_mem h
  refine ⟨⟨found, 1⟩, ?_, named⟩
  simp [resolveSegments?, startAt?, nonempty, first, Entry.follow?]

/-- Below an entry that a path leads to, a child is found by its name. -/
lemma resolveSegments?_child {roots level : List (Entry ι)} {parents : List String} {found : Resolved ι}
    (resolved : resolveSegments? roots parents = some found) (children : found.entry.children = some level)
    {e : Entry ι} (h : e ∈ level) :
    ∃ child, resolveSegments? roots (parents ++ [e.value]) = some child ∧ child.entry.value = e.value := by
  cases parents with
  | nil => cases resolved
  | cons s ss =>
    rw [resolveSegments?] at resolved
    obtain ⟨entry, followed, rfl⟩ := Option.map_eq_some_iff.mp resolved
    obtain ⟨root, started, followed⟩ := Option.bind_eq_some_iff.mp followed
    obtain ⟨child, chosen, named⟩ := choose?_of_mem h
    refine ⟨⟨child, (ss ++ [e.value]).length + 1⟩, ?_, named⟩
    rw [List.cons_append, resolveSegments?, started, Option.bind_some, Entry.follow?_concat, followed,
      Option.bind_some, Entry.descend?, children, Option.bind_some, chosen]
    rfl

/-- A path put together of the segments of a name leads where the segments lead. -/
lemma resolve?_joinStrings {roots : List (Entry ι)} {name : String} {parents : List String} {found : Resolved ι}
    (resolved : resolveSegments? roots parents = some found) (sublist : parents ⊆ segments name) :
    resolve? roots (joinStrings '.' parents) = some found := by
  have nonempty : parents ≠ [] := by
    rintro rfl
    cases resolved
  rw [resolve?, segments_joinStrings nonempty sublist, resolved]

/-- The trail of a path is shorter than the path exactly when the path leads nowhere. -/
lemma length_trail_lt_iff (roots : List (Entry ι)) (path : String) :
    (trail .longest roots path).length < (segments path).length ↔ resolve? roots path = none := by
  have short := length_walk_le roots none (segments path)
  have asked := List.length_pos_iff.mpr (segments_ne_nil path)
  rw [trail, resolve?, trailSegments_longest, resolveSegments?_eq_getLast?]
  split_ifs with whole
  · have passed : walk roots none (segments path) ≠ [] := List.length_pos_iff.mp (whole ▸ asked)
    simp [whole, passed]
  · simp only [iff_true]
    omega

end Lookup

/-- The titles that a schema has along a name of some kind. -/
def Schema.titlesOf (schema : Schema) : Kind → String → List String
  | .containerName => titles schema.containers
  | .keyName => titles schema.keys
  | _ => fun _ => []

lemma hoverOn_eq_titlesOf (schema : Schema) (d : Document) (node : Cursor) (offset : Nat) :
    hoverOn schema d node offset =
      if offset < node.span.start then none
      else
        (throughSegment? (d.textOf node).toList (offset - node.span.start)).bind fun path =>
          if (schema.titlesOf node.kind (String.ofList path)).isEmpty then none
          else
            some ⟨node.span.start, node.span.start + Text.bytes path,
              schema.titlesOf node.kind (String.ofList path)⟩ := by
  rw [hoverOn]
  cases node.kind <;> rfl

/-- The titles shown on a node are those along its name up to the pointer. -/
lemma titles_hoverOn (schema : Schema) (d : Document) (node : Cursor) (offset : Nat) :
    ((hoverOn schema d node offset).map (·.titles)).getD [] =
      if offset < node.span.start then []
      else
        ((throughSegment? (d.textOf node).toList (offset - node.span.start)).map fun path =>
          schema.titlesOf node.kind (String.ofList path)).getD [] := by
  rw [hoverOn_eq_titlesOf]
  split
  next => rfl
  next =>
    cases throughSegment? (d.textOf node).toList (offset - node.span.start) with
    | none => rfl
    | some path => cases found : schema.titlesOf node.kind (String.ofList path) <;> simp [found]

end Keyfile
