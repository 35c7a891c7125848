import Keyfile.Proofs.NameCompletion

/-! Names that a document knows, seen in two ways. A name is reported as unknown exactly when hovering
at its end shows fewer titles than the name has segments, or nothing. -/
namespace Keyfile
open Adjacency

section Pointer

/-- On a level of leaves, a node that is found is one of them and qualifies. -/
lemma of_seekIn {covers : Span → Bool} {above : List Frame} {before ns : List Node} {c : Cursor}
    (flat : ∀ n ∈ ns, n.children = []) (h : Node.seekIn covers above before ns = some c) :
    c.node ∈ ns ∧ covers c.node.span = true := by
  induction ns generalizing before with
  | nil => cases h
  | cons n ns ih =>
    rw [Node.seekIn] at h
    split at h
    next hit =>
      obtain ⟨kind, span, children⟩ := n
      obtain rfl : children = [] := flat _ List.mem_cons_self
      cases h
      exact ⟨List.mem_cons_self, hit⟩
    next =>
      obtain ⟨listed, hit⟩ := ih (fun m later => flat m (List.mem_cons_of_mem n later)) h
      exact ⟨List.mem_cons_of_mem n listed, hit⟩

/-- No name starts right at the end of another one. -/
lemma start_ne_stop {offset : Nat} {s : LineState} {cs : List Char} {ts us : List Token} {t u : Token}
    (h : tokens offset (lexemes s cs) = ts ++ t :: us) (later : u ∈ us)
    (name : t.kind = .containerName ∨ t.kind = .keyName)
    (other : u.kind = .containerName ∨ u.kind = .keyName) : u.span.start ≠ t.span.stop := by
  intro touching
  obtain ⟨before, chars, after, whole, -, place, rest⟩ := tokens_eq_append_cons h
  obtain ⟨vs, ws, split⟩ := List.append_of_mem later
  obtain ⟨between, chars', after', rfl, -, place', -⟩ := tokens_eq_append_cons (rest.trans split)
  have further : lexemes s cs = (before ++ ⟨some t.kind, chars⟩ :: between) ++ ⟨some u.kind, chars'⟩ :: after' := by
    simpa using whole
  obtain ⟨_, -, starts, read⟩ := lexemes_eq_cons (lexemes_eq_append whole).2
  obtain ⟨_, -, starts', -⟩ := lexemes_eq_cons (lexemes_eq_append further).2
  obtain ⟨-, -, -, -, stop⟩ := starts.of_name (by simpa using name)
  obtain ⟨-, -, nonempty, names, -⟩ := starts'.of_name (by simpa using other)
  -- nothing stands between the two, so the second one begins where the first one had to end
  have close : charsOf between = [] := by
    apply Text.eq_nil_of_bytes
    rw [place', place] at touching
    simp only at touching
    omega
  obtain ⟨c, cs', rfl⟩ := List.exists_cons_of_ne_nil nonempty
  have head := congrArg charsOf read
  rw [charsOf_append, charsOf_cons, close, charsOf_lexemes] at head
  have name_char := names c List.mem_cons_self
  rw [stop c (by rw [← head]; rfl)] at name_char
  cases name_char

variable {text : String} {ts us : List Token} {t : Token}

lemma isName_iff {kind : Kind} : kind.isName = true ↔ kind = .containerName ∨ kind = .keyName := by
  cases kind <;> simp [Kind.isName]

lemma innermost_eq_seekIn (d : Document) (offset : Nat) (bias : Bias) :
    d.innermost offset bias =
      (Node.seekIn (·.covers offset bias) [d.rootCursor.frame] [] d.content).getD d.rootCursor := by
  rw [Document.innermost, Document.root, Node.seek]
  rfl

/-- The node that starts at the end of a name or goes on there is no name. -/
lemma isName_innermost_stop (split : tokens 0 (lexemes .fresh text.toList) = ts ++ t :: us)
    (name : t.kind = .containerName ∨ t.kind = .keyName) (wide : t.span.start < t.span.stop) :
    ((scan text).innermost t.span.stop .after).kind.isName = false := by
  rw [innermost_eq_seekIn]
  cases found : Node.seekIn (·.covers t.span.stop .after) [(scan text).rootCursor.frame] []
      (scan text).content with
  | none => rfl
  | some c =>
    obtain ⟨listed, covered⟩ := of_seekIn (children_layout 0 _) found
    rw [layout_eq_map_tokens, split, List.mem_map] at listed
    obtain ⟨u, listed, same⟩ := listed
    have ordered := tokens_pairwise 0 (lexemes .fresh text.toList)
    rw [split] at ordered
    simp only [← same, Token.node, Span.covers, Bool.and_eq_true, decide_eq_true_eq] at covered
    rw [Option.getD_some, Cursor.kind, ← same, Bool.eq_false_iff]
    intro named
    rcases List.mem_append.mp listed with earlier | listed
    · have := (List.pairwise_append.mp ordered).2.2 u earlier t (by simp)
      omega
    · rcases List.mem_cons.mp listed with rfl | later
      · omega
      · have := stop_le_start split later
        exact start_ne_stop split later name (isName_iff.mp named) (by omega)

/-- At the end of a name, a pointer finds that name. -/
lemma hoverAt_stop (schema : Schema) (split : tokens 0 (lexemes .fresh text.toList) = ts ++ t :: us)
    (name : t.kind = .containerName ∨ t.kind = .keyName) :
    hoverAt schema (scan text) t.span.stop =
      hoverOn schema (scan text)
        ⟨t.node, (ts.map Token.node).reverse, us.map Token.node, [(scan text).rootCursor.frame]⟩ t.span.stop := by
  have content : (scan text).content = ts.map Token.node ++ t.node :: us.map Token.node := by
    rw [content_scan, split, List.map_append, List.map_cons]
  have member : t ∈ tokens 0 (lexemes .fresh text.toList) := split ▸ List.mem_append_cons_self
  have wide : t.span.start < t.span.stop :=
    start_lt_stop member (by rcases name with name | name <;> rw [name] <;> decide)
  have before := innermost_scan content wide (Nat.le_refl _)
  rw [hoverAt]
  simp only [isName_innermost_stop split name wide, Bool.false_eq_true, if_false]
  exact congrArg (fun c => hoverOn schema (scan text) c t.span.stop) before

end Pointer

section Titles

variable {text : String} {ts us : List Token} {t : Token}

lemma throughSegment?_bytes (name : List Char) : throughSegment? name (Text.bytes name) = some name := by
  have cut := Text.cut?_append name []
  rw [List.append_nil] at cut
  rw [throughSegment?, cut]
  simp

/-- At the end of a name, hovering shows the titles along all of it. -/
lemma titles_hoverAt_stop (schema : Schema) (split : tokens 0 (lexemes .fresh text.toList) = ts ++ t :: us)
    (name : t.kind = .containerName ∨ t.kind = .keyName) :
    ((hoverAt schema (scan text) t.span.stop).map (·.titles)).getD [] = schema.titlesOf t.kind t.text := by
  have member : t ∈ tokens 0 (lexemes .fresh text.toList) := split ▸ List.mem_append_cons_self
  obtain ⟨before, chars, after, -, -, place, -⟩ := tokens_eq_append_cons split
  have slice := slice_of_mem_tokens member
  obtain ⟨kind, span, word⟩ := t
  simp only [Token.mk.injEq, true_and] at place
  obtain ⟨rfl, rfl⟩ := place
  rw [hoverAt_stop schema split name, titles_hoverOn]
  simp only [Cursor.span, Cursor.kind, Token.node, Document.textOf, slice, String.toList_ofList]
  rw [if_neg (by omega), Nat.add_sub_cancel_left, throughSegment?_bytes, Option.map_some, Option.getD_some]

/-- Titles are missing exactly when the name leads to no entry. -/
lemma length_titlesOf_lt_iff (schema : Schema) {kind : Kind} (name : kind = .containerName ∨ kind = .keyName)
    (path : String) :
    (schema.titlesOf kind path).length < (segments path).length ↔ schema.entryName? kind path = none := by
  rcases name with rfl | rfl
  · rw [Schema.titlesOf, titles, List.length_map, length_trail_lt_iff, Schema.entryName?, entryName?,
      Option.map_eq_none_iff]
  · rw [Schema.titlesOf, titles, List.length_map, length_trail_lt_iff, Schema.entryName?, entryName?,
      Option.map_eq_none_iff]

end Titles

section Reports
variable {schema : Schema} {text : String} {ts us : List Token} {t : Token}

/-- What the schema says of a token in its place is part of the report. -/
lemma mem_diagnose_of_findings (split : tokens 0 (lexemes .fresh text.toList) = ts ++ t :: us) {d : Diagnostic}
    (h : d ∈ findings schema ((slide none none ts).1.map (·.kind)) ((slide none none ts).2.map (·.kind)) t
      (slide none none ts).1) : d ∈ diagnose schema (scan text) := by
  rw [diagnose_scan, split, lint_append, lint_cons, remark_eq]
  simp only [List.mem_append]
  exact .inr (.inl (.inr h))

/-- A name that the schema complains of where it leads to no entry is reported exactly then. -/
lemma unknown_iff (split : tokens 0 (lexemes .fresh text.toList) = ts ++ t :: us)
    (name : t.kind = .containerName ∨ t.kind = .keyName) {message : Message}
    (unknown : message = .keyUnknown ∨ message = .containerUnknown)
    (complaint : schema.entryName? t.kind t.text = none →
      .warning t.span message ∈ findings schema ((slide none none ts).1.map (·.kind))
        ((slide none none ts).2.map (·.kind)) t (slide none none ts).1) :
    (∃ d ∈ diagnose schema (scan text), d.message = message ∧ d.span = t.span) ↔
      schema.entryName? t.kind t.text = none := by
  have member : t ∈ tokens 0 (lexemes .fresh text.toList) := split ▸ List.mem_append_cons_self
  constructor
  · rintro ⟨d, reported, said, place⟩
    by_contra known
    obtain ⟨label, known⟩ := Option.ne_none_iff_exists'.mp known
    have plain : t.kind ∉ Kind.literals := by rcases name with kind | kind <;> rw [kind] <;> decide
    have silent := known_of_entryName? member plain known reported place
    rcases unknown with rfl | rfl
    · exact silent.1 said
    · exact silent.2 said
  · intro leads_nowhere
    exact ⟨_, mem_diagnose_of_findings split (complaint leads_nowhere), rfl, rfl⟩

lemma keyUnknown_iff (split : tokens 0 (lexemes .fresh text.toList) = ts ++ t :: us) (key : t.kind = .keyName) :
    (∃ d ∈ diagnose schema (scan text), d.message = .keyUnknown ∧ d.span = t.span) ↔
      schema.entryName? t.kind t.text = none := by
  apply unknown_iff split (.inr key) (.inl rfl)
  intro unknown
  rw [key, Schema.entryName?, entryName?, Option.map_eq_none_iff] at unknown
  simp [findings, key, unknown]

lemma containerUnknown_iff (split : tokens 0 (lexemes .fresh text.toList) = ts ++ t :: us)
    (container : t.kind = .containerName)
    (bracket : (slide none none ts).2.map (·.kind) = some .containerStart) :
    (∃ d ∈ diagnose schema (scan text), d.message = .containerUnknown ∧ d.span = t.span) ↔
      schema.entryName? t.kind t.text = none := by
  apply unknown_iff split (.inl container) (.inr rfl)
  intro unknown
  rw [container, Schema.entryName?, entryName?, Option.map_eq_none_iff] at unknown
  simp [findings, container, bracket, unknown]

end Reports

/-- Hovering shows nothing, or fewer titles than a name has segments. -/
def FallsShort (shown : Option HoverInfo) (name : String) : Prop :=
  shown = none ∨ ∃ info, shown = some info ∧ info.titles.length < (segments name).length

lemma fallsShort_iff (shown : Option HoverInfo) (name : String) :
    FallsShort shown name ↔ ((shown.map (·.titles)).getD []).length < (segments name).length := by
  have some_segment : 0 < (segments name).length := List.length_pos_iff.mpr (segments_ne_nil name)
  cases shown with
  | none => simpa [FallsShort] using some_segment
  | some info => simp [FallsShort]

/-- A name in a scanned text is reported as unknown exactly when hovering at its end falls short. This
holds of every key, and of every container name that directly follows a bracket. -/
theorem unknown_iff_hover_short (schema : Schema) (text : String) {nodes rest : List Node} {n : Node}
    (content : (scan text).content = nodes ++ n :: rest) :
    (n.kind = .keyName →
      ((∃ d ∈ diagnose schema (scan text), d.message = .keyUnknown ∧ d.span = n.span) ↔
        FallsShort (hoverAt schema (scan text) n.span.stop) ((scan text).slice n.span))) ∧
    (n.kind = .containerName → nodes.getLast?.map (·.kind) = some .containerStart →
      ((∃ d ∈ diagnose schema (scan text), d.message = .containerUnknown ∧ d.span = n.span) ↔
        FallsShort (hoverAt schema (scan text) n.span.stop) ((scan text).slice n.span))) := by
  rw [content_scan] at content
  obtain ⟨ts, us', split, rfl, placed⟩ := List.map_eq_append_iff.mp content
  obtain ⟨t, us, rfl, rfl, rfl⟩ := List.map_eq_cons_iff.mp placed
  have member : t ∈ tokens 0 (lexemes .fresh text.toList) := split ▸ List.mem_append_cons_self
  have short : t.kind = .containerName ∨ t.kind = .keyName →
      (FallsShort (hoverAt schema (scan text) t.span.stop) ((scan text).slice t.span) ↔
        schema.entryName? t.kind t.text = none) := by
    intro name
    rw [fallsShort_iff, titles_hoverAt_stop schema split name, slice_of_mem_tokens member,
      length_titlesOf_lt_iff schema name]
  constructor
  · intro key
    exact (keyUnknown_iff split key).trans (short (.inr key)).symm
  · intro container bracket
    have last : (slide none none ts).2.map (·.kind) = some .containerStart := by
      rcases List.eq_nil_or_concat ts with rfl | ⟨ts, last, rfl⟩
      · cases bracket
      · simpa [List.concat_eq_append, Token.node] using bracket
    exact (containerUnknown_iff split container last).trans (short (.inl container)).symm

/-- The titles of a key end at a wildcard before its last segment, and a container has none. -/
theorem unknown_iff_hover_short_past_wildcard :
    (scan "[é]\nnet.eth.p = 1").content =
      [⟨.containerStart, ⟨0, 1⟩, []⟩, ⟨.containerName, ⟨1, 3⟩, []⟩, ⟨.containerEnd, ⟨3, 4⟩, []⟩,
        ⟨.lineBreak, ⟨4, 5⟩, []⟩, ⟨.keyName, ⟨5, 14⟩, []⟩, ⟨.assign, ⟨15, 16⟩, []⟩,
        ⟨.number, ⟨17, 18⟩, []⟩] ∧
    hoverAt nestedKeys (scan "[é]\nnet.eth.p = 1") 14 = some ⟨5, 14, ["Net", "Any"]⟩ ∧
    (∃ d ∈ diagnose nestedKeys (scan "[é]\nnet.eth.p = 1"), d.message = .keyUnknown ∧ d.span = ⟨5, 14⟩) ∧
    hoverAt nestedKeys (scan "[é]\nnet.eth.p = 1") 3 = none ∧
    ∃ d ∈ diagnose nestedKeys (scan "[é]\nnet.eth.p = 1"), d.message = .containerUnknown ∧ d.span = ⟨1, 3⟩ := by
  have content : (scan "[é]\nnet.eth.p = 1").content =
      [⟨.containerStart, ⟨0, 1⟩, []⟩, ⟨.containerName, ⟨1, 3⟩, []⟩, ⟨.containerEnd, ⟨3, 4⟩, []⟩,
        ⟨.lineBreak, ⟨4, 5⟩, []⟩, ⟨.keyName, ⟨5, 14⟩, []⟩, ⟨.assign, ⟨15, 16⟩, []⟩,
        ⟨.number, ⟨17, 18⟩, []⟩] := by
    rw [scan_eq_within]
    rfl
  have key : hoverAt nestedKeys (scan "[é]\nnet.eth.p = 1") 14 = some ⟨5, 14, ["Net", "Any"]⟩ := by
    rw [scan_eq_within]
    decide +kernel
  have container : hoverAt nestedKeys (scan "[é]\nnet.eth.p = 1") 3 = none := by
    rw [scan_eq_within]
    decide +kernel
  have name : (scan "[é]\nnet.eth.p = 1").slice ⟨5, 14⟩ = "net.eth.p" := by
    rw [scan_eq_within]
    decide +kernel
  have at_key : (scan "[é]\nnet.eth.p = 1").content =
      [⟨.containerStart, ⟨0, 1⟩, []⟩, ⟨.containerName, ⟨1, 3⟩, []⟩, ⟨.containerEnd, ⟨3, 4⟩, []⟩,
        ⟨.lineBreak, ⟨4, 5⟩, []⟩] ++ ⟨.keyName, ⟨5, 14⟩, []⟩ :: _ := content
  have at_container : (scan "[é]\nnet.eth.p = 1").content =
      [⟨.containerStart, ⟨0, 1⟩, []⟩] ++ ⟨.containerName, ⟨1, 3⟩, []⟩ :: _ := content
  refine ⟨content, key, ?_, container, ?_⟩
  · apply ((unknown_iff_hover_short nestedKeys _ at_key).1 rfl).mpr
    exact .inr ⟨_, key, by rw [name]; decide +kernel⟩
  · apply ((unknown_iff_hover_short nestedKeys _ at_container).2 rfl rfl).mpr
    exact .inl container

end Keyfile
