import Keyfile.Proofs.Lossless
import Keyfile.Proofs.NamePlans
import Keyfile.Proofs.Words

/-! Completion of names. What is offered for a name stands in the schema, and the text with an offer accepted
has a name in its place that leads to the entry offered. -/
namespace Keyfile
open Adjacency

section Renaming
variable {p : Char → Bool} {c x : Char} {xs ys zs : List Char}

lemma isValueChar_of_isNameChar (h : isNameChar c = true) : isValueChar c = true := by
  have other : ∀ y, isNameChar y = false → c ≠ y := by
    rintro y unnamed rfl
    rw [h] at unnamed
    cases unnamed
  simp [isValueChar, isCommentMark, other '\n' (by decide), other '#' (by decide), other ';' (by decide)]

/-- A stretch that could go on behind `xs`, and does not, stops inside it. -/
lemma exists_stop_before (h : xs = (xs ++ x :: ys).takeWhile p ++ zs) (more : p x = true) :
    ∃ y ∈ xs, p y = false := by
  have longer : xs ++ [x] = ((xs ++ [x]) ++ ys).takeWhile p ++ (zs ++ [x]) := by
    rw [List.append_assoc, List.singleton_append, ← List.append_assoc, ← h]
  obtain ⟨y, hy, stop⟩ := exists_stop longer (by simp)
  rcases List.mem_append.mp hy with hy | hy
  · exact ⟨y, hy, stop⟩
  · rw [List.mem_singleton.mp hy, more] at stop
    cases stop

lemma exists_stop_before_name (h : xs = Text.trimEnd ((xs ++ x :: ys).takeWhile isValueChar) ++ zs)
    (name : isNameChar x = true) : ∃ y ∈ xs, isValueChar y = false := by
  have longer : xs ++ [x] = Text.trimEnd (((xs ++ [x]) ++ ys).takeWhile isValueChar) ++ (zs ++ [x]) := by
    rw [List.append_assoc, List.singleton_append, ← List.append_assoc, ← h]
  have solid : ∃ y ∈ zs ++ [x], isSolid y = true :=
    ⟨x, by simp, by simp [isSolid, isBlank_of_isNameChar name]⟩
  obtain ⟨y, hy, stop⟩ := exists_stop_of_solid longer solid
  rcases List.mem_append.mp hy with hy | hy
  · exact ⟨y, hy, stop⟩
  · rw [List.mem_singleton.mp hy, isValueChar_of_isNameChar name] at stop
    cases stop

/-- A quoted value that something follows on its line has ended. -/
lemma quotedTail_append_of_ended {escaped : Bool} (h : xs = quotedTail escaped (xs ++ x :: ys) ++ zs)
    (inner : x ≠ '\n') (ys' : List Char) :
    quotedTail escaped (xs ++ ys') = quotedTail escaped (xs ++ x :: ys) := by
  induction xs generalizing escaped with
  | nil =>
    have := (List.append_eq_nil_iff.mp h.symm).1
    rw [List.nil_append, quotedTail, if_neg (by simpa using inner)] at this
    split at this <;> cases this
  | cons c xs ih =>
    simp only [List.cons_append, quotedTail] at h ⊢
    split
    · rfl
    split
    · rfl
    · rename_i hn hq
      rw [if_neg hn, if_neg hq, List.cons_append] at h
      rw [ih (List.cons.inj h).2]

/-- A lexeme before a name ends by itself, whatever comes in place of the name. -/
lemma lexeme_before_name {r : Role} {inContainer : Bool} {cs between rest : List Char}
    (h : c :: cs = (r.lexeme inContainer c (cs ++ x :: rest)).chars ++ between) (name : isNameChar x = true)
    (rest' : List Char) :
    r.lexeme inContainer c (cs ++ rest') = r.lexeme inContainer c (cs ++ x :: rest) := by
  have inner : x ≠ '\n' := by
    rintro rfl
    exact absurd name (by decide)
  cases r with
  | comment =>
    simp only [Role.lexeme] at h ⊢
    have stop : ∃ y ∈ c :: cs, (y != '\n') = false := exists_stop_before h (by simpa using inner)
    rw [← List.cons_append, ← List.cons_append, takeWhile_append_of_stop stop, takeWhile_append_of_stop stop]
  | value =>
    simp only [Role.lexeme] at h ⊢
    by_cases quote : c = '"'
    · subst quote
      simp only [valueLexeme, List.cons_append] at h ⊢
      rw [quotedTail_append_of_ended (List.cons.inj h).2 inner]
    · rw [valueLexeme_unquoted quote] at h ⊢
      have stop : ∃ y ∈ c :: cs, isValueChar y = false := exists_stop_before_name h name
      rw [valueLexeme_unquoted quote, ← List.cons_append, ← List.cons_append, takeWhile_append_of_stop stop,
        takeWhile_append_of_stop stop]
  | name =>
    simp only [Role.lexeme] at h ⊢
    have stop : ∃ y ∈ c :: cs, isNameChar y = false := exists_stop_before h name
    rw [← List.cons_append, ← List.cons_append, takeWhile_append_of_stop stop, takeWhile_append_of_stop stop]
  | _ => rfl

/-- No empty value is read where a name could start. -/
lemma Starts.nonempty_before_name {s : LineState} {l : Lexeme} {rest : List Char} (h : Starts s l (x :: rest))
    (name : isNameChar x = true) : l.chars ≠ [] := by
  intro empty
  obtain ⟨c, cs, text, rfl⟩ := h
  rw [empty, List.nil_append] at text
  obtain ⟨rfl, rfl⟩ := List.cons.inj text
  have value := isValueChar_of_isNameChar name
  cases after : s.afterAssign with
  | false =>
    rw [role_eq_name_iff.mpr ⟨after, name⟩, Role.lexeme, List.takeWhile_cons, if_pos name] at empty
    cases empty
  | true =>
    have unskipped : isGap x = false := by
      by_contra gap
      rw [isNameChar_of_isGap (by simpa using gap)] at name
      cases name
    have quote : x ≠ '"' := by
      rintro rfl
      exact absurd name (by decide)
    rw [after, role_value value unskipped, Role.lexeme, valueLexeme_unquoted quote] at empty
    have parted : (x :: rest).takeWhile isValueChar =
        Text.trimEnd ((x :: rest).takeWhile isValueChar) ++ (x :: rest).takeWhile isValueChar :=
      (congrArg (· ++ _) empty).symm
    have blank := isBlank_of_trimEnd parted x (by rw [List.takeWhile_cons, if_pos value]; simp)
    rw [isBlank_of_isNameChar name] at blank
    cases blank

lemma Starts.before_name {s : LineState} {l : Lexeme} {between rest : List Char}
    (h : Starts s l (between ++ x :: rest)) (name : isNameChar x = true) (rest' : List Char) :
    Starts s l (between ++ rest') := by
  refine h.replace ?_ ?_
  · intro empty
    obtain ⟨none, rfl⟩ := List.append_eq_nil_iff.mp empty
    exact h.nonempty_before_name name none
  · intro r c cs front first
    rw [lexeme_before_name (by rw [first, front]) name, first]

/-- What stands before a name is read in the same way whatever comes in place of the name. -/
theorem lexemes_before_name {s : LineState} {cs rest : List Char} {ls ms : List Lexeme}
    (h : lexemes s cs = ls ++ ms) (start : charsOf ms = x :: rest) (name : isNameChar x = true)
    (rest' : List Char) : lexemes s (charsOf ls ++ rest') = ls ++ lexemes (s.afterAll ls) rest' := by
  apply lexemes_replace h
  intro front l back _ starts
  rw [start] at starts
  exact starts.before_name name rest'

/-- A name can be replaced by another name. -/
lemma lexemes_rename {s : LineState} {cs chars chars' : List Char} {ls ms : List Lexeme} {kind : Kind}
    (h : lexemes s cs = ls ++ ⟨some kind, chars⟩ :: ms) (named : kind = .containerName ∨ kind = .keyName)
    (nonempty : chars' ≠ []) (names : ∀ y ∈ chars', isNameChar y = true) :
    lexemes s (charsOf ls ++ (chars' ++ charsOf ms)) = ls ++ ⟨some kind, chars'⟩ :: ms := by
  obtain ⟨-, resumed⟩ := lexemes_eq_append h
  obtain ⟨_, below, starts, tail⟩ := lexemes_eq_cons resumed
  obtain rfl : charsOf ms = _ := List.append_cancel_left below
  obtain ⟨ready, kinded, wide, inside, stop⟩ := starts.of_name (by simpa using named)
  obtain ⟨y, ys, rfl⟩ := List.exists_cons_of_ne_nil wide
  have renamed : Starts (s.afterAll ls) ⟨some kind, chars'⟩ (charsOf ms) := by
    have kinded : some kind = some (s.afterAll ls).nameKind := kinded
    rw [kinded]
    exact starts_name ready nonempty names stop
  rw [lexemes_before_name h rfl (inside y (by simp)), lexemes_of_starts renamed]
  exact congrArg (fun later => ls ++ _ :: later) tail.symm

end Renaming

section Innermost

lemma seekIn_of_covers (covers : Span → Bool) (above : List Frame) {ns : List Node} {n : Node}
    (missed : ∀ m ∈ ns, covers m.span = false) (hit : covers n.span = true) (leaf : n.children = [])
    (before rest : List Node) :
    Node.seekIn covers above before (ns ++ n :: rest) = some ⟨n, ns.reverse ++ before, rest, above⟩ := by
  induction ns generalizing before with
  | nil =>
    obtain ⟨kind, span, children⟩ := n
    obtain rfl : children = [] := leaf
    rw [List.nil_append, Node.seekIn, if_pos hit, Node.seek, Node.seekIn]
    rfl
  | cons m ns ih =>
    rw [List.cons_append, Node.seekIn, if_neg (by simp [missed m (by simp)]),
      ih fun k hk => missed k (by simp [hk])]
    simp

/-- The innermost node at an offset is the one that the offset lies in or right behind. -/
theorem innermost_scan {text : String} {nodes rest : List Node} {n : Node} {offset : Nat}
    (content : (scan text).content = nodes ++ n :: rest) (low : n.span.start < offset)
    (high : offset ≤ n.span.stop) :
    (scan text).innermost offset .before = ⟨n, nodes.reverse, rest, [(scan text).rootCursor.frame]⟩ := by
  have leaf : n.children = [] := children_layout 0 (lexemes .fresh text.toList) n (by
    change n ∈ (scan text).content
    rw [content]
    simp)
  have ordered : (nodes ++ n :: rest).Pairwise fun m k => m.span.stop ≤ k.span.start := by
    rw [← content, content_scan]
    exact List.pairwise_map.mpr (tokens_pairwise 0 _)
  have missed : ∀ m ∈ nodes, m.span.covers offset .before = false := by
    intro m hm
    have := (List.pairwise_append.mp ordered).2.2 m hm n (by simp)
    simp only [Span.covers, Bool.and_eq_false_iff, decide_eq_false_iff_not]
    omega
  have hit : n.span.covers offset .before = true := by simp [Span.covers, low, high]
  have found :=
    seekIn_of_covers (·.covers offset .before) [(scan text).rootCursor.frame] missed hit leaf [] rest
  rw [← content, List.append_nil] at found
  rw [Document.innermost, Document.root, Node.seek]
  exact congrArg (fun c => Option.getD c _) found

end Innermost

section Offers

/-- Where nobody can be asked, only what is settled comes about. -/
lemma Plan.settled_of_run {ε : Type} {plan : Plan} {completion : Completion}
    (h : plan.run (none : Option (Provider Id ε)) = pure (.ok (some completion))) :
    plan = .settled (some completion) := by
  cases plan with
  | settled result => exact congrArg Plan.settled (Except.ok.inj h)
  | ask query start stop kind => cases Except.ok.inj h

variable {ι : Type}

lemma mem_labels_offer {c : Completer} {typed : String} {kind : Entry ι → OptionKind}
    {entries : List (Entry ι)} {start : Nat} {stop : Option Nat} {label : String}
    (h : label ∈ (Completion.mk start stop (c.offer typed kind entries)).labels) :
    ∃ e ∈ entries, e.value = label := by
  simp only [Completion.labels, Completer.offer, List.map_map, List.mem_map, List.mem_filter] at h
  obtain ⟨e, ⟨listed, -⟩, rfl⟩ := h
  exact ⟨e, listed, rfl⟩

variable [HasWildcards ι]

/-- The name of the entry that a path leads to. -/
def entryName? (roots : List (Entry ι)) (path : String) : Option String :=
  (resolve? roots path).map (·.entry.value)

/-- The name of the entry that a name of some kind leads to. -/
def Schema.entryName? (schema : Schema) : Kind → String → Option String
  | .containerName => Keyfile.entryName? schema.containers
  | .keyName => Keyfile.entryName? schema.keys
  | _ => fun _ => none

/-- Options for the last segment of a name. Put in its place, each leads to an entry of its name. -/
def Completion.LeadsOn (lookup : String → Option String) (name : String) (span : Span)
    (completion : Completion) : Prop :=
  ∃ front last : String, name = front ++ last ∧ completion.start = span.start + Text.bytes front.toList ∧
    completion.stop = some span.stop ∧
    ∀ label ∈ completion.labels, label ≠ "" → '.' ∉ label.toList → lookup (front ++ label) = some label

variable {roots : List (Entry ι)} {name : String} (c : Completer) (typed : String)
  (kind : Entry ι → OptionKind) (span : Span)

/-- The entries of the level that a name leads to are offered for its last segment. -/
lemma leadsOn_level {parents : List String} {last : String} {level : List (Entry ι)}
    (split : segments name = parents ++ [last]) (below : levelBelow? roots parents = some level) :
    (Completion.mk (Completer.nameStart span name parents last) (some span.stop)
      (c.offer typed kind level)).LeadsOn (entryName? roots) name span := by
  obtain ⟨front, last', parents', rfl, split', single, replaced⟩ := exists_last_segment name
  rw [split] at split'
  obtain ⟨rfl, same⟩ := List.append_inj' split' rfl
  obtain rfl := List.singleton_inj.mp same
  refine ⟨front, last, rfl, ?_, rfl, ?_⟩
  · simp only [Completer.nameStart, Completer.segmentStart, String.toList_append, Text.bytes_append]
    split_ifs with alone
    · rw [single alone]
      rfl
    · omega
  · intro label listed nonempty plain
    obtain ⟨e, he, rfl⟩ := mem_labels_offer listed
    obtain ⟨found, resolved, named⟩ :
        ∃ found, resolveSegments? roots (parents ++ [e.value]) = some found ∧ found.entry.value = e.value := by
      by_cases alone : parents = []
      · subst alone
        cases below
        exact resolveSegments?_root he nonempty
      · obtain ⟨parent, resolved, children⟩ := levelBelow?_eq_some alone below
        exact resolveSegments?_child resolved children he
    rw [entryName?, resolve?, replaced e.value plain, resolved, Option.map_some, named]

lemma leadsOn_container {completion : Completion} (h : c.container name span = .settled (some completion)) :
    completion.LeadsOn (c.schema.entryName? .containerName) name span := by
  obtain ⟨-, last, parents, -, split, -⟩ := exists_last_segment name
  have plan : c.ContainerPlan name span parents last (c.container name span) := Completer.containerPlan split
  rw [h] at plan
  cases plan with
  | listed _ below => exact leadsOn_level c last _ span split below

lemma leadsOn_key {completion : Completion} (h : c.key name span = .settled (some completion)) :
    completion.LeadsOn (c.schema.entryName? .keyName) name span := by
  obtain ⟨-, last, parents, -, split, -⟩ := exists_last_segment name
  have plan : c.KeyPlan name span parents last (c.key name span) := Completer.keyPlan split
  rw [h] at plan
  cases plan with
  | listed _ below => exact leadsOn_level c last _ span split below

end Offers

section Unknown
variable {schema : Schema} {d : Diagnostic}

lemma check_known {rule : Rule} {value : String} {key span : Span} (h : d ∈ rule.check value key span) :
    d.message ≠ .keyUnknown ∧ d.message ≠ .containerUnknown := by
  rcases List.mem_append.mp h with h | h
  · obtain ⟨first, rest, split⟩ := List.append_of_mem h
    obtain ⟨-, -, rfl | ⟨_, rfl, rfl | ⟨low, high, rfl⟩⟩⟩ := checkContent_eq_append_cons split <;>
      exact ⟨nofun, nofun⟩
  · rcases (mem_checkType h).2 with type | type | type <;> rw [type] <;> exact ⟨nofun, nofun⟩

/-- A name is reported as unknown only where it leads to no entry. -/
lemma findings_unknown {older? last? : Option Kind} {token : Token} {key? : Option Token}
    (h : d ∈ findings schema older? last? token key?)
    (unknown : ¬(d.message ≠ .keyUnknown ∧ d.message ≠ .containerUnknown)) :
    d.span = token.span ∧ token.kind ∉ Kind.literals ∧ schema.entryName? token.kind token.text = none := by
  obtain ⟨first, rest, split⟩ := List.append_of_mem h
  obtain ⟨-, -, ⟨named, rfl⟩ | ⟨named, rfl⟩⟩ | ⟨key, rule, -, -, -, -, -, checked⟩ :=
    findings_eq_append_cons schema split
  · simp only [findings, named, List.mem_ite_nil_right, Option.isNone_iff_eq_none] at h
    rw [named, Schema.entryName?, entryName?, h.1.2]
    exact ⟨rfl, by decide, rfl⟩
  · simp only [findings, named, List.mem_ite_nil_right, Option.isNone_iff_eq_none] at h
    rw [named, Schema.entryName?, entryName?, h.1]
    exact ⟨rfl, by decide, rfl⟩
  · exact absurd (check_known (by rw [checked]; simp)) unknown

lemma lint_unknown {size : Nat} {ts : List Token} (h : d ∈ lint schema size none none ts)
    (unknown : ¬(d.message ≠ .keyUnknown ∧ d.message ≠ .containerUnknown)) :
    ∃ t ∈ ts, d.span = t.span ∧ t.kind ∉ Kind.literals ∧ schema.entryName? t.kind t.text = none := by
  obtain ⟨before, after, split⟩ := List.append_of_mem h
  obtain ⟨us, vs, first, rest, rfl, said, -⟩ := lint_eq_append_cons schema size split
  have said : d ∈ Window.report schema size (slide none none us).1
      ⟨(slide none none us).1, (slide none none us).2, vs.head?⟩ := by rw [said]; simp
  rcases List.mem_append.mp said with broken | found
  · -- what breaks tokens off says nothing of names
    cases last : (slide none none us).2 with
    | none => simp [last] at broken
    | some token =>
      simp only [last, Option.map_some, Option.getD_some] at broken
      obtain ⟨first, rest, split⟩ := List.append_of_mem broken
      obtain ⟨-, -, ⟨-, rfl⟩ | ⟨-, -, rfl⟩ | ⟨-, -, rfl⟩ | ⟨-, -, rfl⟩⟩ :=
        interruption_eq_append_cons split <;> exact absurd ⟨nofun, nofun⟩ unknown
  · cases vs with
    | nil => simp at found
    | cons token vs => exact ⟨token, by simp, findings_unknown found unknown⟩

/-- A name that leads to an entry is not reported as unknown. -/
theorem known_of_entryName? {text label : String} {t : Token} (h : t ∈ tokens 0 (lexemes .fresh text.toList))
    (kind : t.kind ∉ Kind.literals) (known : schema.entryName? t.kind t.text = some label)
    (reported : d ∈ diagnose schema (scan text)) (place : d.span = t.span) :
    d.message ≠ .keyUnknown ∧ d.message ≠ .containerUnknown := by
  by_contra unknown
  rw [diagnose_scan] at reported
  obtain ⟨u, hu, spot, other, missing⟩ := lint_unknown reported unknown
  have same : t.span = u.span := place.symm.trans spot
  have wide := start_lt_stop h kind
  obtain ⟨ts, us, split⟩ := List.append_of_mem h
  obtain ⟨ts', us', split'⟩ := List.append_of_mem hu
  obtain ⟨-, rfl, -⟩ := eq_of_overlap split split' (same ▸ wide) (same ▸ wide)
  rw [known] at missing
  cases missing

end Unknown

section Accept

/-- What completion offers on a name is for its last segment. -/
lemma leadsOn_atOffset {ε : Type} {c : Completer} {text : String} (scanned : c.document = scan text)
    {nodes rest : List Node} {n : Node} {offset : Nat} (content : (scan text).content = nodes ++ n :: rest)
    (named : n.kind = .containerName ∨ n.kind = .keyName) (low : n.span.start < offset)
    (high : offset ≤ n.span.stop) {completion : Completion}
    (offered : (c.atOffset offset).run (none : Option (Provider Id ε)) = pure (.ok (some completion))) :
    completion.LeadsOn (c.schema.entryName? n.kind) ((scan text).slice n.span) n.span := by
  have settled := Plan.settled_of_run offered
  have inner := innermost_scan content low high
  rw [Completer.atOffset, scanned] at settled
  simp only [inner] at settled
  rcases named with named | named
  · simp only [Cursor.kind, named, reduceCtorEq, if_false, Completer.onNode, Document.textOf, Cursor.span,
      scanned] at settled
    rw [named]
    exact leadsOn_container c n.span settled
  · simp only [Cursor.kind, named, reduceCtorEq, if_false, Completer.onNode, Document.textOf, Cursor.span,
      scanned] at settled
    rw [named]
    exact leadsOn_key c n.span settled

/-- A name in a text can be replaced by another one, and is then read in the same place. -/
lemma tokens_rename {text : String} {t : Token} (h : t ∈ tokens 0 (lexemes .fresh text.toList))
    (named : t.kind = .containerName ∨ t.kind = .keyName) :
    (∀ c ∈ t.text.toList, isNameChar c = true) ∧
      ∃ a c : String, text = a ++ t.text ++ c ∧ t.span.start = Text.bytes a.toList ∧
        t.span.stop = Text.bytes (a ++ t.text).toList ∧
        ∀ name : String, name ≠ "" → (∀ x ∈ name.toList, isNameChar x = true) →
          ∃ u ∈ tokens 0 (lexemes .fresh (a ++ name ++ c).toList), u.kind = t.kind ∧ u.text = name ∧
            u.span = ⟨t.span.start, t.span.start + Text.bytes name.toList⟩ := by
  obtain ⟨ts, us, split⟩ := List.append_of_mem h
  obtain ⟨before, chars, after, whole, -, place, -⟩ := tokens_eq_append_cons split
  obtain ⟨kind, span, word⟩ := t
  simp only [Token.mk.injEq, Nat.zero_add, true_and] at place
  obtain ⟨rfl, rfl⟩ := place
  obtain ⟨_, -, starts, -⟩ := lexemes_eq_cons (lexemes_eq_append whole).2
  obtain ⟨-, -, -, inside, -⟩ := starts.of_name (by simpa using named)
  refine ⟨by simpa using inside, String.ofList (charsOf before), String.ofList (charsOf after),
    ?_, ?_, ?_, ?_⟩
  · have chars := charsOf_lexemes .fresh text.toList
    rw [whole, charsOf_append, charsOf_cons] at chars
    rw [← String.ofList_append, ← String.ofList_append, List.append_assoc, chars, String.ofList_toList]
  · simp
  · simp
  · intro name nonempty names
    have read := lexemes_rename whole named (by simpa using nonempty) names
    rw [String.toList_append, String.toList_append, String.toList_ofList, String.toList_ofList,
      List.append_assoc, read, tokens_append, tokens_kind]
    exact ⟨_, List.mem_append_right _ List.mem_cons_self, rfl, String.ofList_toList, by simp⟩

/-- The text with an option accepted has a name in the same place, and it leads to the entry offered. -/
theorem accept_name_completion {ε : Type} (schema : Schema) (settings : CompletionSettings)
    {text label : String} {node : Node} {offset : Nat} {completion : Completion}
    (placed : node ∈ (scan text).content)
    (named : node.kind = .containerName ∨ node.kind = .keyName) (low : node.span.start < offset)
    (high : offset ≤ node.span.stop)
    (offered : (Completer.atOffset ⟨schema, settings, scan text⟩ offset).run (none : Option (Provider Id ε)) =
      pure (.ok (some completion)))
    (listed : label ∈ completion.labels) (nonempty : label ≠ "")
    (segment : ∀ x ∈ label.toList, isNameChar x = true ∧ x ≠ '.') :
    ∃ a b c : String, text = a ++ b ++ c ∧ completion.start = Text.bytes a.toList ∧
      completion.stop = some (Text.bytes (a ++ b).toList) ∧
      ∃ renamed ∈ (scan (a ++ label ++ c)).content, renamed.kind = node.kind ∧
        renamed.span = ⟨node.span.start, completion.start + Text.bytes label.toList⟩ ∧
        schema.entryName? renamed.kind ((scan (a ++ label ++ c)).slice renamed.span) = some label ∧
        ∀ d ∈ diagnose schema (scan (a ++ label ++ c)), d.span = renamed.span →
          d.message ≠ .keyUnknown ∧ d.message ≠ .containerUnknown := by
  obtain ⟨nodes, rest, content⟩ := List.append_of_mem placed
  obtain ⟨front, last, parted, start, stop, leads⟩ := leadsOn_atOffset rfl content named low high offered
  rw [content_scan] at placed
  obtain ⟨t, ht, rfl⟩ := List.mem_map.mp placed
  change t.kind = _ ∨ t.kind = _ at named
  obtain ⟨names, a, c, rfl, atStart, atStop, renames⟩ := tokens_rename ht named
  have written : t.text = front ++ last := (slice_of_mem_tokens ht).symm.trans parted
  rw [written] at names atStop ⊢
  have name : ∀ x ∈ (front ++ label).toList, isNameChar x = true := by
    simp only [String.toList_append, List.mem_append] at names ⊢
    rintro x (hx | hx)
    · exact names x (.inl hx)
    · exact (segment x hx).1
  obtain ⟨u, hu, kind, word, spot⟩ := renames (front ++ label) (by simp [nonempty]) name
  have known : schema.entryName? u.kind u.text = some label := by
    rw [kind, word]
    exact leads label listed nonempty fun dot => (segment '.' dot).2 rfl
  have other : u.kind ∉ Kind.literals := by
    rw [kind]
    rcases named with named | named <;> rw [named] <;> decide
  have first : completion.start = Text.bytes (a ++ front).toList := by
    rw [start, String.toList_append, Text.bytes_append, ← atStart]
    rfl
  rw [← String.append_assoc] at atStop hu
  refine ⟨a ++ front, last, c, by simp only [String.append_assoc], first, by rw [stop, ← atStop]; rfl, u.node,
    by rw [content_scan]; exact List.mem_map_of_mem hu, kind, ?_, ?_, ?_⟩
  · rw [Token.node, spot, first, atStart, String.toList_append, String.toList_append, Text.bytes_append,
      Text.bytes_append, Nat.add_assoc, ← atStart]
    rfl
  · rw [Token.node, slice_of_mem_tokens hu, known]
  · exact fun d reported place => known_of_entryName? hu other known reported place

/-- A schema with a group of keys, one of which stands for any name. -/
def nestedKeys : Schema :=
  ⟨[], [⟨"net", "Net", ⟨.group, none⟩, some [⟨"any", "Any", ⟨.wildcard, none⟩, some
    [⟨"pört", "Port", ⟨.value, none⟩, none⟩]⟩]⟩]⟩

/-- A wildcard takes the place of a segment before the one completed. -/
theorem accept_name_completion_below_wildcard :
    Completer.atOffset ⟨nestedKeys, ⟨10, false⟩, scan "[é]\nnet.eth.p = 1"⟩ 14 =
        .settled (some ⟨13, some 14, [⟨"pört", some "Port", .type⟩]⟩) ∧
      ∃ a b c : String, "[é]\nnet.eth.p = 1" = a ++ b ++ c ∧ 13 = Text.bytes a.toList ∧
        some 14 = some (Text.bytes (a ++ b).toList) ∧
        ∃ renamed ∈ (scan (a ++ "pört" ++ c)).content, renamed.kind = .keyName ∧
          renamed.span = ⟨5, 13 + Text.bytes "pört".toList⟩ ∧
          nestedKeys.entryName? renamed.kind ((scan (a ++ "pört" ++ c)).slice renamed.span) = some "pört" ∧
          ∀ d ∈ diagnose nestedKeys (scan (a ++ "pört" ++ c)), d.span = renamed.span →
            d.message ≠ .keyUnknown ∧ d.message ≠ .containerUnknown := by
  refine (fun settled => ⟨settled, ?_⟩) (by rw [scan_eq_within]; decide +kernel)
  have content : (scan "[é]\nnet.eth.p = 1").content =
      [⟨.containerStart, ⟨0, 1⟩, []⟩, ⟨.containerName, ⟨1, 3⟩, []⟩, ⟨.containerEnd, ⟨3, 4⟩, []⟩,
        ⟨.lineBreak, ⟨4, 5⟩, []⟩, ⟨.keyName, ⟨5, 14⟩, []⟩, ⟨.assign, ⟨15, 16⟩, []⟩,
        ⟨.number, ⟨17, 18⟩, []⟩] := by
    rw [scan_eq_within]
    rfl
  have placed : ⟨.keyName, ⟨5, 14⟩, []⟩ ∈ (scan "[é]\nnet.eth.p = 1").content := by
    rw [content]
    simp
  have segment : "pört".toList.all (fun x => isNameChar x && x != '.') = true := by decide +kernel
  exact accept_name_completion nestedKeys ⟨10, false⟩ placed (.inr rfl) (by decide) (by decide)
    (congrArg (Plan.run (none : Option (Provider Id Unit))) settled) (by decide) (by decide)
    fun x hx => by simpa using List.all_eq_true.mp segment x hx

end Accept

end Keyfile
