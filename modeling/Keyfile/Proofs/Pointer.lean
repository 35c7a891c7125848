import Keyfile.Proofs.Boundaries
import Keyfile.Proofs.KnownNames

/-! A pointer that moves along a name. The name is read up to the end of the segment under the pointer, so the titles
shown at one place go on with those shown at each later one. -/
namespace Keyfile

section Segments
variable {path more : List Char}

lemma Text.pieces_append_sep (sep : Char) (cs rest : List Char) :
    pieces sep (cs ++ sep :: rest) = pieces sep cs ++ pieces sep rest := by
  induction cs with
  | nil => simp [pieces]
  | cons c cs ih =>
    obtain ⟨first, others, split⟩ := List.exists_cons_of_ne_nil (pieces_ne_nil sep cs)
    rw [List.cons_append, pieces, pieces, ih, split]
    split_ifs
    · rfl
    · rfl

/-- A name that is cut at the end of a segment keeps the segments before the cut. -/
lemma segments_isPrefix (cut : ∀ c ∈ more.head?, c = '.') :
    segments (String.ofList path) <+: segments (String.ofList (path ++ more)) := by
  rw [segments, segments, splitString, splitString, String.toList_ofList, String.toList_ofList]
  apply List.IsPrefix.map
  cases more with
  | nil => simp
  | cons c more =>
    obtain rfl : c = '.' := cut c rfl
    rw [Text.pieces_append_sep]
    exact List.prefix_append _ _

variable {ι : Type} [HasWildcards ι] {roots : List (Entry ι)} {p q : String}

/-- The titles along the first segments of a path are the first titles along it. -/
lemma titles_eq_take (h : segments p <+: segments q) :
    titles roots p = (titles roots q).take (segments p).length := by
  rw [titles, titles, trail, trail, trailSegments_longest, trailSegments_longest, ← List.map_take, ← walk_take,
    ← List.prefix_iff_eq_take.mp h]

lemma length_titles_le (roots : List (Entry ι)) (p : String) :
    (titles roots p).length ≤ (segments p).length := by
  rw [titles, trail, trailSegments_longest, List.length_map]
  exact length_walk_le roots none _

end Segments

section Titles
variable (schema : Schema) {kind : Kind} {p q : String}

lemma titlesOf_eq_take (named : kind.isName = true) (h : segments p <+: segments q) :
    schema.titlesOf kind p = (schema.titlesOf kind q).take (segments p).length := by
  rcases isName_iff.mp named with rfl | rfl <;> exact titles_eq_take h

lemma length_titlesOf_le (named : kind.isName = true) (p : String) :
    (schema.titlesOf kind p).length ≤ (segments p).length := by
  rcases isName_iff.mp named with rfl | rfl <;> exact length_titles_le _ p

/-- Along the first segments of a path there are titles exactly if there are titles along all of it. -/
lemma titlesOf_eq_nil_iff (named : kind.isName = true) (h : segments p <+: segments q) :
    schema.titlesOf kind p = [] ↔ schema.titlesOf kind q = [] := by
  rw [titlesOf_eq_take schema named h, List.take_eq_nil_iff]
  simp [segments_ne_nil]

end Titles

section Cuts

/-- A pointer further on in a name reads at least as much of it, and more only from the next point on. -/
lemma exists_through_append (x z y : List Char) :
    ∃ more, (x ++ z) ++ y.takeWhile (· != '.') = (x ++ (z ++ y).takeWhile (· != '.')) ++ more ∧
      ∀ c ∈ more.head?, c = '.' := by
  by_cases point : '.' ∈ z
  · obtain ⟨u, v, rfl, plain⟩ := List.eq_append_cons_of_mem point
    refine ⟨'.' :: (v ++ y.takeWhile (· != '.')), ?_, by simp⟩
    have here : (u ++ '.' :: v ++ y).takeWhile (· != '.') = u := by
      rw [List.append_assoc, List.takeWhile_append_of_pos, List.cons_append, List.takeWhile_cons]
      · simp
      · intro c hc
        rw [bne_iff_ne]
        rintro rfl
        exact plain hc
    rw [here]
    simp
  · refine ⟨[], ?_, by simp⟩
    rw [List.takeWhile_append_of_pos, List.append_nil, List.append_assoc]
    intro c hc
    rw [bne_iff_ne]
    rintro rfl
    exact point hc

/-- What is read of a name ends at its end or at a point, and there is no point between the pointer and that end. -/
lemma exists_through (y : List Char) :
    ∃ rest, y = y.takeWhile (· != '.') ++ rest ∧ '.' ∉ y.takeWhile (· != '.') ∧ ∀ c ∈ rest.head?, c = '.' := by
  have whole : y.takeWhile (· != '.') ++ y.dropWhile (· != '.') = y := List.takeWhile_append_dropWhile
  refine ⟨y.dropWhile (· != '.'), whole.symm, ?_, ?_⟩
  · intro point
    simpa using List.mem_takeWhile_imp point
  · intro c hc
    simpa using stop_of_takeWhile_append whole c hc

lemma throughSegment?_append (x y : List Char) :
    throughSegment? (x ++ y) (Text.bytes x) = some (x ++ y.takeWhile (· != '.')) := by
  rw [throughSegment?, Text.cut?_append]
  rfl

end Cuts

/-- The titles shown on a node with the pointer at an offset; where nothing is shown there are none. -/
def titlesShown (schema : Schema) (d : Document) (node : Cursor) (offset : Nat) : List String :=
  ((hoverOn schema d node offset).map (·.titles)).getD []

/-- What is shown on a name belongs to the part of it up to the end of the segment under the pointer. -/
structure HoverInfo.Follows (info : HoverInfo) (schema : Schema) (d : Document) (node : Cursor) (offset : Nat) :
    Prop where
  start : info.start = node.span.start
  pointer : info.start ≤ offset ∧ offset ≤ info.stop
  inside : info.stop ≤ node.span.stop
  segment : ∃ chars, Span.slice? ⟨offset, info.stop⟩ d.text.toList = some chars ∧ '.' ∉ chars
  stopped : info.stop = node.span.stop ∨ Span.slice? ⟨info.stop, info.stop + 1⟩ d.text.toList = some ['.']
  path : ∃ path, Span.slice? ⟨info.start, info.stop⟩ d.text.toList = some path ∧
    info.titles = schema.titlesOf node.kind (String.ofList path) ∧
    info.titles.length ≤ (segments (String.ofList path)).length

section Moving
variable {schema : Schema} {d : Document} {node : Cursor} {name front back : List Char}

lemma toList_textOf (text : d.text.toList = front ++ (name ++ back))
    (place : node.span = ⟨Text.bytes front, Text.bytes front + Text.bytes name⟩) :
    (d.textOf node).toList = name := by
  rw [Document.textOf, Document.slice, place, text, Span.slice?_append]
  exact String.toList_ofList

/-- What is shown where a name is cut. -/
lemma hoverOn_of_cut (text : d.text.toList = front ++ (name ++ back))
    (place : node.span = ⟨Text.bytes front, Text.bytes front + Text.bytes name⟩) {x y : List Char}
    (cut : name = x ++ y) :
    hoverOn schema d node (Text.bytes front + Text.bytes x) =
      if schema.titlesOf node.kind (String.ofList (x ++ y.takeWhile (· != '.'))) = [] then none
      else some ⟨Text.bytes front, Text.bytes front + Text.bytes (x ++ y.takeWhile (· != '.')),
        schema.titlesOf node.kind (String.ofList (x ++ y.takeWhile (· != '.')))⟩ := by
  rw [hoverOn_eq_titlesOf, toList_textOf text place, place, if_neg (by simp), Nat.add_sub_cancel_left, cut,
    throughSegment?_append, Option.bind_some]
  simp only [List.isEmpty_iff]

/-- An offset between two characters in the place of a name cuts the name. -/
lemma exists_cut_of_isBoundary {text : List Char} (whole : text = front ++ (name ++ back)) {offset : Nat}
    (low : Text.bytes front ≤ offset) (high : offset ≤ Text.bytes front + Text.bytes name)
    (boundary : Text.isBoundary text offset = true) :
    ∃ x y, name = x ++ y ∧ offset = Text.bytes front + Text.bytes x := by
  obtain ⟨a, b, split, rfl⟩ := Text.isBoundary_iff.mp boundary
  obtain ⟨x, rfl⟩ := Text.isPrefix_of_bytes_le (whole.symm.trans split) low
  have rest : x ++ b = name ++ back := by
    rw [whole, List.append_assoc, List.append_cancel_left_eq] at split
    exact split.symm
  rw [Text.bytes_append] at high
  obtain ⟨y, rfl⟩ := Text.isPrefix_of_bytes_le rest (by omega)
  exact ⟨x, y, rfl, Text.bytes_append front x⟩

/-- A pointer that shows something cuts the name. -/
lemma exists_cut_of_hoverOn (text : d.text.toList = front ++ (name ++ back))
    (place : node.span = ⟨Text.bytes front, Text.bytes front + Text.bytes name⟩) {offset : Nat} {info : HoverInfo}
    (shown : hoverOn schema d node offset = some info) :
    ∃ x y, name = x ++ y ∧ offset = Text.bytes front + Text.bytes x := by
  rw [hoverOn_eq_titlesOf, toList_textOf text place, place] at shown
  split_ifs at shown with before
  obtain ⟨path, read, -⟩ := Option.bind_eq_some_iff.mp shown
  rw [throughSegment?] at read
  obtain ⟨⟨x, y⟩, cut, -⟩ := Option.map_eq_some_iff.mp read
  obtain ⟨rfl, size⟩ := Text.eq_append_of_cut? cut
  have within : Text.bytes front ≤ offset := Nat.le_of_not_lt before
  exact ⟨x, y, rfl, by rw [size, Nat.add_sub_cancel' within]⟩

lemma follows_of_cut (named : node.kind.isName = true) (text : d.text.toList = front ++ (name ++ back))
    (place : node.span = ⟨Text.bytes front, Text.bytes front + Text.bytes name⟩) {x y : List Char}
    (cut : name = x ++ y) {info : HoverInfo}
    (shown : hoverOn schema d node (Text.bytes front + Text.bytes x) = some info) :
    info.Follows schema d node (Text.bytes front + Text.bytes x) := by
  rw [hoverOn_of_cut text place cut] at shown
  split_ifs at shown
  obtain rfl := Option.some.inj shown
  obtain ⟨rest, parted, plain, stop⟩ := exists_through y
  generalize y.takeWhile (· != '.') = z at *
  subst cut parted
  simp only [List.append_assoc] at text
  have segment : Span.slice? ⟨Text.bytes front + Text.bytes x, Text.bytes front + Text.bytes (x ++ z)⟩
      d.text.toList = some z := by
    have := Span.slice?_append (front ++ x) z (rest ++ back)
    simp only [Text.bytes_append, List.append_assoc, Nat.add_assoc] at this ⊢
    rw [text, this]
  have path : Span.slice? ⟨Text.bytes front, Text.bytes front + Text.bytes (x ++ z)⟩ d.text.toList =
      some (x ++ z) := by
    have := Span.slice?_append front (x ++ z) (rest ++ back)
    rwa [List.append_assoc, ← text] at this
  have stopped : Text.bytes front + Text.bytes (x ++ z) = node.span.stop ∨
      Span.slice? ⟨Text.bytes front + Text.bytes (x ++ z), Text.bytes front + Text.bytes (x ++ z) + 1⟩
        d.text.toList = some ['.'] := by
    cases rest with
    | nil => exact .inl (by simp [place])
    | cons c rest =>
      obtain rfl : c = '.' := stop c rfl
      right
      have := Span.slice?_append (front ++ (x ++ z)) ['.'] (rest ++ back)
      simp only [Text.bytes_append, List.append_assoc, List.cons_append, List.nil_append] at this text ⊢
      rw [text]
      exact this
  exact ⟨by rw [place], ⟨by simp, by simp⟩, by simp [place], ⟨z, segment, plain⟩, stopped,
    x ++ z, path, rfl, length_titlesOf_le schema named _⟩

lemma titlesShown_of_cut (text : d.text.toList = front ++ (name ++ back))
    (place : node.span = ⟨Text.bytes front, Text.bytes front + Text.bytes name⟩) {x y : List Char}
    (cut : name = x ++ y) :
    titlesShown schema d node (Text.bytes front + Text.bytes x) =
      schema.titlesOf node.kind (String.ofList (x ++ y.takeWhile (· != '.'))) := by
  rw [titlesShown, hoverOn_of_cut text place cut]
  split_ifs with nothing
  · rw [nothing]
    rfl
  · rfl

end Moving

/-- The titles shown on a name go on as the pointer moves on along it. Something is shown anywhere on the name exactly
if there are titles along it, and what is shown belongs to the segments up to the one under the pointer. -/
theorem hover_follows_pointer (schema : Schema) (d : Document) (node : Cursor) (named : node.kind.isName = true)
    {name : List Char} (valid : node.span.slice? d.text.toList = some name) :
    (∀ o₁ o₂, node.span.start ≤ o₁ → o₁ ≤ o₂ → o₂ ≤ node.span.stop →
        Text.isBoundary d.text.toList o₁ = true → Text.isBoundary d.text.toList o₂ = true →
          titlesShown schema d node o₁ <+: titlesShown schema d node o₂) ∧
      (∀ offset, node.span.start ≤ offset → offset ≤ node.span.stop → Text.isBoundary d.text.toList offset = true →
        (hoverOn schema d node offset = none ↔ schema.titlesOf node.kind (String.ofList name) = [])) ∧
      ∀ offset info, hoverOn schema d node offset = some info → info.Follows schema d node offset := by
  obtain ⟨⟨front, middle, back⟩, parts, rfl⟩ := Option.map_eq_some_iff.mp valid
  obtain ⟨text, place⟩ := Span.eq_append_of_parts? parts
  refine ⟨?_, ?_, ?_⟩
  · intro o₁ o₂ low ordered high boundary₁ boundary₂
    rw [place] at low high
    obtain ⟨x, y, cut, rfl⟩ := exists_cut_of_isBoundary text low (ordered.trans high) boundary₁
    obtain ⟨x', y', cut', rfl⟩ := exists_cut_of_isBoundary text (low.trans ordered) high boundary₂
    obtain ⟨z, rfl⟩ := Text.isPrefix_of_bytes_le (cut.symm.trans cut') (by omega)
    obtain rfl : y = z ++ y' := by
      rw [cut, List.append_assoc] at cut'
      exact List.append_cancel_left cut'
    obtain ⟨more, further, stop⟩ := exists_through_append x z y'
    rw [titlesShown_of_cut text place cut, titlesShown_of_cut text place cut', further,
      titlesOf_eq_take schema named (segments_isPrefix stop)]
    exact List.take_prefix _ _
  · intro offset low high boundary
    rw [place] at low high
    obtain ⟨x, y, cut, rfl⟩ := exists_cut_of_isBoundary text low high boundary
    obtain ⟨rest, parted, -, stop⟩ := exists_through y
    have first : segments (String.ofList (x ++ y.takeWhile (· != '.'))) <+:
        segments (String.ofList (x ++ y.takeWhile (· != '.') ++ rest)) := segments_isPrefix stop
    rw [List.append_assoc, ← parted, ← cut] at first
    rw [hoverOn_of_cut text place cut, ← titlesOf_eq_nil_iff schema named first]
    simp
  · intro offset info shown
    obtain ⟨x, y, cut, rfl⟩ := exists_cut_of_hoverOn text place shown
    exact follows_of_cut named text place cut shown

/-- A key that stands inside another node, with letters of two bytes before it and in it. -/
def nestedName : Document := ⟨"ä net.é.x", [⟨.unclassified, ⟨0, 11⟩, [⟨.keyName, ⟨3, 11⟩, []⟩]⟩]⟩

/-- The place of that key in its tree. -/
def nestedCursor : Cursor :=
  ⟨⟨.keyName, ⟨3, 11⟩, []⟩, [], [], [⟨.unclassified, ⟨0, 11⟩, [], []⟩, ⟨.document, ⟨0, 11⟩, [], []⟩]⟩

/-- From the first segment to the second, one more title is shown. -/
theorem hover_follows_pointer_nested :
    nestedName.cursors.getLast? = some nestedCursor ∧
      nestedCursor.span.slice? nestedName.text.toList = some "net.é.x".toList ∧
      titlesShown nestedKeys nestedName nestedCursor 4 = ["Net"] ∧
      titlesShown nestedKeys nestedName nestedCursor 9 = ["Net", "Any"] ∧
      titlesShown nestedKeys nestedName nestedCursor 4 <+: titlesShown nestedKeys nestedName nestedCursor 9 ∧
      ∃ info, hoverOn nestedKeys nestedName nestedCursor 7 = some info ∧
        info.Follows nestedKeys nestedName nestedCursor 7 := by
  have valid : nestedCursor.span.slice? nestedName.text.toList = some "net.é.x".toList := by decide +kernel
  have shown : hoverOn nestedKeys nestedName nestedCursor 7 = some ⟨3, 9, ["Net", "Any"]⟩ := by decide +kernel
  obtain ⟨goesOn, -, follows⟩ := hover_follows_pointer nestedKeys nestedName nestedCursor rfl valid
  refine ⟨rfl, valid, by decide +kernel, by decide +kernel, ?_, _, shown, follows 7 _ shown⟩
  exact goesOn 4 9 (by decide) (by decide) (by decide) (by decide) (by decide)

end Keyfile
