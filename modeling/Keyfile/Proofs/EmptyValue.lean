import Keyfile.Proofs.ReplacedValue

/-! Completion where no value is typed yet. Right behind the equals sign of a key, and in the blanks after it, the same
is offered and the same is asked, unless a comment follows; right behind the equals sign, its text counts as typed. -/
namespace Keyfile
open Adjacency

section Offers
variable {ε : Type}

/-- Two plans come to the same with an application that answers as given, if there is one: one outcome, each time for
the empty range at the plan's own offset, and the same questions. -/
def Plan.Agree (answer? : Option (Query → Except ε (List String))) (p : Plan) (o : Nat) (q : Plan) (o' : Nat) : Prop :=
  ∃ (outcome : Except ε (Option (List CompletionOption))) (asked : List Query),
    p.run (answer?.map fun answer => recording fun _ => answer) [] =
        (outcome.map fun options? => options?.map (⟨o, none, ·⟩), asked) ∧
      q.run (answer?.map fun answer => recording fun _ => answer) [] =
        (outcome.map fun options? => options?.map (⟨o', none, ·⟩), asked)

/-- It makes no difference to the values of a key whether a text is typed or nothing: the key is unknown, or all
values to offer are accepted for the text, or nobody can be asked. -/
def Completer.Indifferent (c : Completer) (answers : Bool) (key typed : String) : Prop :=
  ∀ found, resolve? c.schema.keys key = some found →
    match found.entry.info.rule.bind (·.suggestions? c.settings.rangeLimit) with
    | some suggestions => suggestions.isNarrowed = true → ∀ v ∈ suggestions.values, c.accepts typed v = true
    | none => answers = false

variable {c : Completer} {key typed : String}

lemma agree_settled_iff (answer? : Option (Query → Except ε (List String))) (o o' : Nat)
    {xs ys : List CompletionOption} :
    Plan.Agree answer? (.settled (some ⟨o, none, xs⟩)) o (.settled (some ⟨o', none, ys⟩)) o' ↔ xs = ys := by
  constructor
  · rintro ⟨outcome, asked, first, second⟩
    have first := congrArg Prod.fst first
    have second := congrArg Prod.fst second
    cases outcome with
    | error e => cases first
    | ok options? =>
      cases options? with
      | none => cases first
      | some zs =>
        have left := congrArg Completion.options (Option.some.inj (Except.ok.inj first))
        have right := congrArg Completion.options (Option.some.inj (Except.ok.inj second))
        exact left.trans right.symm
  · rintro rfl
    exact ⟨.ok (some xs), [], rfl, rfl⟩

/-- Questions come to the same exactly if they are the same, or if nobody is asked. -/
lemma agree_ask_iff (answer? : Option (Query → Except ε (List String))) (o o' : Nat) {query query' : Query}
    {kind : OptionKind} :
    Plan.Agree answer? (.ask query o none kind) o (.ask query' o' none kind) o' ↔
      (answer?.isSome = true → query = query') := by
  cases answer? with
  | none => exact iff_of_true ⟨.ok none, [], rfl, rfl⟩ (by simp)
  | some answer =>
    rw [Plan.Agree]
    simp only [Option.map_some, run_ask_recording, Option.isSome_some, forall_const]
    constructor
    · rintro ⟨outcome, asked, first, second⟩
      have same := (congrArg Prod.snd first).trans (congrArg Prod.snd second).symm
      simpa using same
    · rintro rfl
      refine ⟨(answer query).map fun labels => some (labels.map (⟨·, none, kind⟩)), [query], ?_, ?_⟩
      · cases answer query <;> rfl
      · cases answer query <;> rfl

/-- Completion of a value comes to the same with and without a text typed exactly if the text makes no difference. -/
lemma agree_value_iff (answer? : Option (Query → Except ε (List String))) (o o' : Nat) :
    Plan.Agree answer? (c.value o key typed) o (c.value o' key "") o' ↔
      (typed ≠ "" → c.Indifferent answer?.isSome key typed) := by
  rw [Completer.Indifferent]
  cases resolved : resolve? c.schema.keys key with
  | none =>
    simp only [Completer.value, resolved]
    exact iff_of_true ⟨.ok none, [], rfl, rfl⟩ (by simp)
  | some found =>
    simp only [Option.some.injEq, forall_eq']
    cases suggested : found.entry.info.rule.bind (·.suggestions? c.settings.rangeLimit) with
    | none =>
      simp only [Completer.value, resolved, suggested, agree_ask_iff, Query.mk.injEq, true_and]
      cases answer? <;> simp
    | some suggestions =>
      have all : suggestions.values.filter (fun _ => true) = suggestions.values :=
        List.filter_eq_self.mpr fun _ _ => rfl
      simp only [Completer.value, resolved, suggested, agree_settled_iff, accepts_empty, Bool.or_true, all]
      rw [List.map_inj_right fun _ _ same => congrArg CompletionOption.label same, List.filter_eq_self]
      by_cases untyped : typed = ""
      · simp [untyped, accepts_empty]
      · cases narrowed : suggestions.isNarrowed <;> simp [untyped]

end Offers

section Places

/-- The last of the nodes on a level that qualify without a break from the first one on. -/
lemma getLast?_takeWhile_level (qualifies : Cursor → Bool) (above : List Frame) {ns rest : List Node} {n : Node}
    (first : ∀ c : Cursor, c.node ∈ ns ++ [n] → qualifies c = true)
    (later : ∀ c : Cursor, c.node ∈ rest.head? → qualifies c = false) (before : List Node) :
    ((Cursor.level above before (ns ++ n :: rest)).takeWhile qualifies).getLast? =
      some ⟨n, ns.reverse ++ before, rest, above⟩ := by
  induction ns generalizing before with
  | nil =>
    have none : (Cursor.level above (n :: before) rest).takeWhile qualifies = [] := by
      cases rest with
      | nil => rfl
      | cons m rest => rw [Cursor.level, List.takeWhile_cons, later _ rfl]; rfl
    rw [List.nil_append, Cursor.level, List.takeWhile_cons, first _ (by simp), if_pos rfl, none]
    rfl
  | cons m ns ih =>
    have further := ih (fun c hc => first c (List.mem_cons_of_mem m hc)) (m :: before)
    rw [List.cons_append, Cursor.level, List.takeWhile_cons, first _ (by simp), if_pos rfl, List.getLast?_cons,
      further]
    simp

/-- An equals sign of a key without a value, and blanks right behind it. -/
structure EmptyValue (text : String) (nodes : List Node) (key assign : Node) (rest : List Node) (blanks : List Char) :
    Prop where
  content : (scan text).content = nodes ++ key :: assign :: rest
  keyKind : key.kind = .keyName
  assignKind : assign.kind = .assign
  unassigned : ∀ n ∈ rest.head?, n.kind.isLiteral = false
  blank : ∀ c ∈ blanks, c = ' ' ∨ c = '\t'
  placed : ∃ front behind, text.toList = front ++ (blanks ++ behind) ∧ Text.bytes front = assign.span.stop

variable {schema : Schema} {settings : CompletionSettings} {text : String} {nodes rest : List Node}
  {key assign : Node} {blanks : List Char}

lemma stop_le_of_assign (content : (scan text).content = nodes ++ assign :: rest) (kind : assign.kind = .assign) :
    ∀ n ∈ nodes ++ [assign], n.span.stop ≤ assign.span.stop := by
  have ordered : (nodes ++ assign :: rest).Pairwise fun m k => m.span.stop ≤ k.span.start := by
    rw [← content, content_scan]
    exact List.pairwise_map.mpr (tokens_pairwise 0 _)
  have width := stop_of_assign (content ▸ List.mem_append_cons_self) kind
  intro n hn
  rcases List.mem_append.mp hn with earlier | same
  · have := (List.pairwise_append.mp ordered).2.2 n earlier assign (by simp)
    omega
  · rw [List.mem_singleton.mp same]

/-- Right behind the equals sign of a key, whatever node comes next counts as typed. -/
lemma atOffset_behind_assign (content : (scan text).content = nodes ++ key :: assign :: rest)
    (keyKind : key.kind = .keyName) (assignKind : assign.kind = .assign) :
    Completer.atOffset ⟨schema, settings, scan text⟩ assign.span.stop =
      Completer.value ⟨schema, settings, scan text⟩ assign.span.stop ((scan text).slice key.span)
        (trimmed ((rest.head?.map fun n => (scan text).slice n.span).getD "")) := by
  have split : (scan text).content = (nodes ++ [key]) ++ assign :: rest := by simp [content]
  have width := stop_of_assign (split ▸ List.mem_append_cons_self) assignKind
  have inner := innermost_scan split (by omega) le_rfl
  rw [Completer.atOffset]
  simp only [inner, Cursor.kind, assignKind, reduceCtorEq, if_false, Completer.onNode, Completer.afterAssign,
    Cursor.prevOfKind?, Cursor.prev?, Cursor.next?, List.reverse_append, List.reverse_singleton, List.singleton_append,
    Option.filter_some, keyKind, beq_self_eq_true, if_true, Document.textOf, Cursor.span, ← width]
  cases rest <;> rfl

/-- All that follows the equals sign follows the blanks. -/
lemma EmptyValue.le_start (h : EmptyValue text nodes key assign rest blanks) :
    ∀ n ∈ rest, assign.span.stop + Text.bytes blanks ≤ n.span.start := by
  obtain ⟨front, behind, cut, place⟩ := h.placed
  obtain ⟨-, -, -, inContainer, -, -, -, read⟩ := scan_assigned h.content h.keyKind h.assignKind cut place
  have gaps : ∀ c ∈ blanks, isGap c = true := by
    intro c hc
    rcases h.blank c hc with rfl | rfl <;> rfl
  rw [lexemes_gaps _ gaps, tokens_gaps, place] at read
  intro n hn
  rw [read] at hn
  obtain ⟨t, listed, rfl⟩ := List.mem_map.mp hn
  exact (tokens_bounds listed).1

lemma EmptyValue.split (h : EmptyValue text nodes key assign rest blanks) :
    (scan text).content = (nodes ++ [key]) ++ assign :: rest := by
  simp [h.content]

/-- No node ends in the blanks. -/
lemma EmptyValue.innermost (h : EmptyValue text nodes key assign rest blanks) (wide : blanks ≠ []) :
    (scan text).innermost (assign.span.stop + Text.bytes blanks) .before = (scan text).rootCursor := by
  have size : 0 < Text.bytes blanks := Nat.pos_of_ne_zero (mt Text.eq_nil_of_bytes wide)
  rcases innermost_scan_cases text (assign.span.stop + Text.bytes blanks) with
    root | ⟨_, n, _, whole, low, high, -⟩
  · exact root
  · have placed : n ∈ (nodes ++ [key] ++ [assign]) ++ rest := by
      rw [← List.append_cons, ← h.split, whole]
      exact List.mem_append_cons_self
    rcases List.mem_append.mp placed with early | late
    · have := stop_le_of_assign h.split h.assignKind n early
      omega
    · have := h.le_start n late
      omega

/-- The equals sign is found from the end of the blanks. -/
lemma EmptyValue.assignBefore? (h : EmptyValue text nodes key assign rest blanks) :
    Completer.assignBefore? (scan text) (assign.span.stop + Text.bytes blanks) =
      some ⟨assign, key :: nodes.reverse, rest, [(scan text).rootCursor.frame]⟩ := by
  have early : ∀ c : Cursor, c.node ∈ (nodes ++ [key]) ++ [assign] →
      decide (c.span.stop ≤ assign.span.stop + Text.bytes blanks) = true := by
    intro c hc
    have := stop_le_of_assign h.split h.assignKind _ hc
    rw [decide_eq_true_eq, Cursor.span]
    omega
  have late : ∀ c : Cursor, c.node ∈ rest.head? →
      decide (c.span.stop ≤ assign.span.stop + Text.bytes blanks) = false := by
    intro c hc
    have member := List.mem_of_head? hc
    have low := h.le_start _ member
    have listed : c.node ∈ (scan text).content := by simp [h.content, member]
    have wide := start_lt_stop_of_content listed (h.unassigned _ hc)
    rw [decide_eq_false_iff_not, Cursor.span]
    omega
  have last := getLast?_takeWhile_level (fun c => decide (c.span.stop ≤ assign.span.stop + Text.bytes blanks))
    [(scan text).rootCursor.frame] early late []
  rw [← h.split] at last
  obtain ⟨front, behind, cut, place⟩ := h.placed
  have gap : Span.slice? ⟨assign.span.stop, assign.span.stop + Text.bytes blanks⟩ (scan text).text.toList =
      some blanks := by
    rw [← place]
    exact cut ▸ Span.slice?_append front blanks behind
  have level : (scan text).rootCursor.children =
      Cursor.level [(scan text).rootCursor.frame] [] (scan text).content := rfl
  have kind : assign.kind = .assign := h.assignKind
  have all : blanks.all (fun c => c == ' ' || c == '\t') = true := by simpa using h.blank
  rw [Completer.assignBefore?, level, last]
  simp only [Cursor.kind, Cursor.span, kind, if_true, gap, all, List.reverse_append, List.reverse_singleton,
    List.singleton_append, List.append_nil]

/-- In the blanks after the equals sign of a key, before a node that is no value, nothing counts as typed. -/
lemma EmptyValue.atOffset (h : EmptyValue text nodes key assign rest blanks) (wide : blanks ≠ []) :
    Completer.atOffset ⟨schema, settings, scan text⟩ (assign.span.stop + Text.bytes blanks) =
      Completer.value ⟨schema, settings, scan text⟩ (assign.span.stop + Text.bytes blanks)
        ((scan text).slice key.span) "" := by
  rw [Completer.atOffset]
  simp only [h.innermost wide, h.assignBefore?, Completer.afterGap, Cursor.prevOfKind?, Cursor.prev?,
    Option.filter_some, Cursor.kind, h.keyKind, beq_self_eq_true, if_true, Document.textOf, Cursor.span]
  exact if_pos rfl

end Places

section Typed
variable {text : String}

lemma Text.trim_ne_nil {cs : List Char} {c : Char} (member : c ∈ cs) (solid : isBlank c = false) : trim cs ≠ [] := by
  intro nothing
  have kept : c ∈ cs.dropWhile isBlank := by
    have whole : cs.takeWhile isBlank ++ cs.dropWhile isBlank = cs := List.takeWhile_append_dropWhile
    rw [← whole, List.mem_append] at member
    rcases member with blank | kept
    · rw [List.mem_takeWhile_imp blank] at solid
      cases solid
    · exact kept
  rw [trim] at nothing
  have blank := isBlank_of_trimEnd (show cs.dropWhile isBlank = trimEnd (cs.dropWhile isBlank) ++ _ by
    rw [nothing]; rfl) c kept
  rw [solid] at blank
  cases blank

lemma slice_of_mem_content {n : Node} (h : n ∈ (scan text).content) :
    ∃ chars, ⟨some n.kind, chars⟩ ∈ lexemes .fresh text.toList ∧ (scan text).slice n.span = String.ofList chars := by
  obtain ⟨t, listed, rfl⟩ := exists_token h
  obtain ⟨ts, us, split⟩ := List.append_of_mem listed
  obtain ⟨before, chars, after, whole, -, place, -⟩ := tokens_eq_append_cons split
  refine ⟨chars, whole ▸ List.mem_append_cons_self, ?_⟩
  rw [Token.node, slice_of_mem_tokens listed, place]

lemma exists_mark {s : LineState} {cs : List Char} {l : Lexeme} (h : l ∈ lexemes s cs)
    (kind : l.kind? = some .comment) : ∃ c ∈ l.chars, isCommentMark c = true := by
  obtain ⟨s', rest, starts⟩ := exists_starts_of_mem h
  obtain ⟨c, cs, -, hr, first⟩ := starts.inversion
  rw [kind] at hr first
  have mark : isCommentMark c = true ∧ c ≠ '\n' := by
    rw [Role.ofKind] at hr
    unfold role at hr
    split_ifs at hr
    exact ⟨by assumption, by assumption⟩
  refine ⟨c, ?_, mark.1⟩
  rw [← first, Role.ofKind, Role.lexeme, List.takeWhile_cons, if_pos (by simpa using mark.2)]
  exact List.mem_cons_self

/-- The text of a comment is not blank. -/
lemma trimmed_comment {n : Node} (placed : n ∈ (scan text).content) (kind : n.kind = .comment) :
    trimmed ((scan text).slice n.span) ≠ "" := by
  obtain ⟨chars, listed, slice⟩ := slice_of_mem_content placed
  obtain ⟨c, member, mark⟩ := exists_mark listed (congrArg some kind)
  have solid : Text.isBlank c = false := by
    simp only [isCommentMark, Bool.or_eq_true, beq_iff_eq] at mark
    rcases mark with rfl | rfl <;> rfl
  intro nothing
  apply Text.trim_ne_nil member solid
  rw [slice, trimmed, String.toList_ofList] at nothing
  simpa using nothing

lemma trimmed_lineBreak {n : Node} (placed : n ∈ (scan text).content) (kind : n.kind = .lineBreak) :
    trimmed ((scan text).slice n.span) = "" := by
  obtain ⟨chars, listed, slice⟩ := slice_of_mem_content placed
  have newline : chars = ['\n'] := chars_lineBreak listed (congrArg some kind)
  rw [slice, newline]
  rfl

end Typed

/-- Where a key has no value yet, completion right behind its equals sign and in the blanks after it comes to the same,
exactly if no comment follows whose text makes a difference as the text of a value would. -/
theorem empty_value_agrees_iff {ε : Type} (schema : Schema) (settings : CompletionSettings)
    (answer? : Option (Query → Except ε (List String))) {text : String} {nodes rest : List Node} {key assign : Node}
    {blanks : List Char} (h : EmptyValue text nodes key assign rest blanks) (wide : blanks ≠ []) :
    Plan.Agree answer?
        (Completer.atOffset ⟨schema, settings, scan text⟩ assign.span.stop) assign.span.stop
        (Completer.atOffset ⟨schema, settings, scan text⟩ (assign.span.stop + Text.bytes blanks))
        (assign.span.stop + Text.bytes blanks) ↔
      ∀ next ∈ rest.head?, next.kind = .comment →
        Completer.Indifferent ⟨schema, settings, scan text⟩ answer?.isSome ((scan text).slice key.span)
          (trimmed ((scan text).slice next.span)) := by
  rw [h.atOffset wide, atOffset_behind_assign h.content h.keyKind h.assignKind, agree_value_iff]
  cases rest with
  | nil => exact iff_of_true (fun typed => absurd rfl typed) (by simp)
  | cons next rest =>
    have placed : next ∈ (scan text).content := by simp [h.content]
    simp only [List.head?_cons, Option.map_some, Option.getD_some, Option.mem_some_iff, forall_eq']
    rcases kind_of_assigned h.content h.keyKind h.assignKind with literal | kind | kind
    · rw [h.unassigned next rfl] at literal
      cases literal
    · exact iff_of_true (fun typed => absurd (trimmed_lineBreak placed kind) typed) (by simp [kind])
    · simp [kind, trimmed_comment placed kind]

/-- Before a line break, the application is asked the same question from both places. -/
theorem empty_value_agrees_before_lineBreak :
    EmptyValue "[ä]\nk =\t \n"
        [⟨.containerStart, ⟨0, 1⟩, []⟩, ⟨.containerName, ⟨1, 3⟩, []⟩, ⟨.containerEnd, ⟨3, 4⟩, []⟩,
          ⟨.lineBreak, ⟨4, 5⟩, []⟩]
        ⟨.keyName, ⟨5, 6⟩, []⟩ ⟨.assign, ⟨7, 8⟩, []⟩ [⟨.lineBreak, ⟨10, 11⟩, []⟩] ['\t', ' '] ∧
      Plan.Agree (some fun query => (.ok [query.path, query.typed] : Except Unit (List String)))
        (Completer.atOffset ⟨openKey, ⟨256, true⟩, scan "[ä]\nk =\t \n"⟩ 8) 8
        (Completer.atOffset ⟨openKey, ⟨256, true⟩, scan "[ä]\nk =\t \n"⟩ 10) 10 := by
  refine (fun empty => ⟨empty, ?_⟩) ⟨by rw [scan_eq_within]; rfl, rfl, rfl, by simp [Kind.isLiteral, Kind.literals],
    by simp, "[ä]\nk =".toList, ['\n'], rfl, rfl⟩
  exact (empty_value_agrees_iff openKey ⟨256, true⟩ _ empty (by simp)).mpr (by simp)

/-- Before a comment, nothing is offered right behind the equals sign, and all values are offered after a blank. -/
theorem empty_value_disagrees_before_comment :
    EmptyValue "k= # t" [] ⟨.keyName, ⟨0, 1⟩, []⟩ ⟨.assign, ⟨1, 2⟩, []⟩ [⟨.comment, ⟨3, 6⟩, []⟩] [' '] ∧
      ¬Plan.Agree (none : Option (Query → Except Unit (List String)))
        (Completer.atOffset ⟨conditionedKey "in:a,b", ⟨256, true⟩, scan "k= # t"⟩ 2) 2
        (Completer.atOffset ⟨conditionedKey "in:a,b", ⟨256, true⟩, scan "k= # t"⟩ 3) 3 := by
  have behind : Completer.atOffset ⟨conditionedKey "in:a,b", ⟨256, true⟩, scan "k= # t"⟩ 2 =
      .settled (some ⟨2, none, []⟩) := by
    rw [scan_eq_within]
    decide +kernel
  have blank : Completer.atOffset ⟨conditionedKey "in:a,b", ⟨256, true⟩, scan "k= # t"⟩ 3 =
      .settled (some ⟨3, none, [⟨"a", none, .choice⟩, ⟨"b", none, .choice⟩]⟩) := by
    rw [scan_eq_within]
    decide +kernel
  refine ⟨⟨by rw [scan_eq_within]; rfl, rfl, rfl, by simp [Kind.isLiteral, Kind.literals], by simp,
    ['k', '='], "# t".toList, rfl, rfl⟩, ?_⟩
  rw [behind, blank, agree_settled_iff]
  simp

end Keyfile
