import Keyfile.Document.Scan
import Mathlib.Data.List.Induction
import Mathlib.Data.List.TakeWhile
import Mathlib.Tactic.Common

/-! How the lexemes of a text hang together. The state after a lexeme is known from its kind, so the
lexemes of a text can be cut anywhere and read on from there; and a lexeme depends on what follows it
only through the characters that end it. -/
namespace Keyfile

/-- The state after a lexeme, by the kind of the lexeme alone. -/
def LineState.after (s : LineState) : Option Kind → LineState
  | some .lineBreak => .fresh
  | some .containerStart => { s with inContainer := true }
  | some .containerEnd => { s with inContainer := false }
  | some .assign => { s with afterAssign := true }
  | some .string => { s with afterAssign := false }
  | some .number => { s with afterAssign := false }
  | some .boolean => { s with afterAssign := false }
  | _ => s

/-- The state after a list of lexemes. -/
def LineState.afterAll (s : LineState) (ls : List Lexeme) : LineState :=
  ls.foldl (fun s l => s.after l.kind?) s

@[simp] theorem LineState.afterAll_nil (s : LineState) : s.afterAll [] = s := rfl
@[simp] theorem LineState.afterAll_cons (s : LineState) (l : Lexeme) (ls : List Lexeme) :
    s.afterAll (l :: ls) = (s.after l.kind?).afterAll ls := rfl
@[simp] theorem LineState.afterAll_append (s : LineState) (ls ms : List Lexeme) :
    s.afterAll (ls ++ ms) = (s.afterAll ls).afterAll ms := by
  simp [LineState.afterAll]

/-- The text that lexemes make up. -/
def charsOf (ls : List Lexeme) : List Char := ls.flatMap (·.chars)

@[simp] theorem charsOf_nil : charsOf [] = [] := rfl
@[simp] theorem charsOf_cons (l : Lexeme) (ls : List Lexeme) : charsOf (l :: ls) = l.chars ++ charsOf ls := rfl
@[simp] theorem charsOf_append (ls ms : List Lexeme) : charsOf (ls ++ ms) = charsOf ls ++ charsOf ms := by
  simp [charsOf]

/-- The code points of the blank characters. -/
def Text.blankCodes : List Nat :=
  [9, 10, 11, 12, 13, 0x20, 0x85, 0xA0, 0x1680, 0x2000, 0x2001, 0x2002, 0x2003, 0x2004, 0x2005, 0x2006,
   0x2007, 0x2008, 0x2009, 0x200A, 0x2028, 0x2029, 0x202F, 0x205F, 0x3000]

lemma Text.mem_blankCodes_of_isBlank {c : Char} (h : isBlank c = true) : c.toNat ∈ blankCodes := by
  simp only [isBlank, Bool.or_eq_true, Bool.and_eq_true, decide_eq_true_eq, beq_iff_eq] at h
  simp only [blankCodes, List.mem_cons, List.not_mem_nil, or_false]
  omega

/-- No blank can stand in a name. -/
lemma isBlank_of_isNameChar {c : Char} (h : isNameChar c = true) : Text.isBlank c = false := by
  by_contra blank
  have unnamed : ∀ n ∈ Text.blankCodes, isNameChar (Char.ofNat n) = false := by decide +kernel
  have no_name := unnamed _ (Text.mem_blankCodes_of_isBlank (by simpa using blank))
  rw [Char.ofNat_toNat, h] at no_name
  cases no_name

/-- What a character is for when a lexeme starts with it. -/
inductive Role where
  | lineBreak
  | gap
  | comment
  | value
  | containerStart
  | containerEnd
  | assign
  | name
  | stray
  deriving DecidableEq, Repr

/-- The role of a character; only a value that is waited for makes a difference to it. -/
def role (afterAssign : Bool) (c : Char) : Role :=
  if c = '\n' then .lineBreak
  else if isGap c then .gap
  else if isCommentMark c then .comment
  else if afterAssign then .value
  else if c = '[' then .containerStart
  else if c = ']' then .containerEnd
  else if c = '=' then .assign
  else if isNameChar c then .name
  else .stray

/-- The lexeme that a character in some role starts. -/
def Role.lexeme (inContainer : Bool) (c : Char) (cs : List Char) : Role → Lexeme
  | .lineBreak => ⟨some .lineBreak, [c]⟩
  | .gap => ⟨none, [c]⟩
  | .comment => ⟨some .comment, (c :: cs).takeWhile (· != '\n')⟩
  | .value => valueLexeme (c :: cs)
  | .containerStart => ⟨some .containerStart, [c]⟩
  | .containerEnd => ⟨some .containerEnd, [c]⟩
  | .assign => ⟨some .assign, [c]⟩
  | .name => ⟨some (if inContainer then .containerName else .keyName), (c :: cs).takeWhile isNameChar⟩
  | .stray => ⟨some .unclassified, [c]⟩

lemma valueKind_mem_literals (value : List Char) : valueKind value ∈ Kind.literals := by
  unfold valueKind
  split
  · decide
  · split <;> decide

lemma valueLexeme_kind? (cs : List Char) : ∃ kind ∈ Kind.literals, (valueLexeme cs).kind? = some kind := by
  unfold valueLexeme
  split
  · exact ⟨.string, by decide, rfl⟩
  · exact ⟨_, valueKind_mem_literals _, rfl⟩

/-- The role that starts lexemes of some kind. -/
def Role.ofKind : Option Kind → Role
  | none => .gap
  | some .lineBreak => .lineBreak
  | some .comment => .comment
  | some .string => .value
  | some .number => .value
  | some .boolean => .value
  | some .containerStart => .containerStart
  | some .containerEnd => .containerEnd
  | some .assign => .assign
  | some .containerName => .name
  | some .keyName => .name
  | _ => .stray

lemma Role.ofKind_lexeme (r : Role) (inContainer : Bool) (c : Char) (cs : List Char) :
    Role.ofKind (r.lexeme inContainer c cs).kind? = r := by
  cases r with
  | value =>
    obtain ⟨kind, literal, hk⟩ := valueLexeme_kind? (c :: cs)
    simp only [Kind.literals, List.mem_cons, List.not_mem_nil, or_false] at literal
    rcases literal with rfl | rfl | rfl <;> simp [Role.lexeme, hk, Role.ofKind]
  | name => cases inContainer <;> rfl
  | _ => rfl

lemma after_valueKind (s : LineState) (value : List Char) :
    s.after (some (valueKind value)) = { s with afterAssign := false } := by
  unfold valueKind
  split
  · rfl
  · split <;> rfl

lemma after_valueLexeme (s : LineState) (cs : List Char) :
    s.after (valueLexeme cs).kind? = { s with afterAssign := false } := by
  unfold valueLexeme
  split
  · rfl
  · exact after_valueKind s _

/-- The first lexeme by the role of its first character, and the state by the kind of the lexeme. -/
lemma firstLexeme_eq (s : LineState) (c : Char) (cs : List Char) :
    firstLexeme s c cs =
      ((role s.afterAssign c).lexeme s.inContainer c cs,
        s.after ((role s.afterAssign c).lexeme s.inContainer c cs).kind?) := by
  unfold firstLexeme role
  by_cases newline : c = '\n'
  · rw [if_pos newline, if_pos newline]
    rfl
  rw [if_neg newline, if_neg newline]
  by_cases gap : isGap c
  · rw [if_pos gap, if_pos gap]
    rfl
  rw [if_neg gap, if_neg gap]
  by_cases mark : isCommentMark c
  · rw [if_pos mark, if_pos mark]
    rfl
  rw [if_neg mark, if_neg mark]
  by_cases value : s.afterAssign
  · rw [if_pos value, if_pos value]
    simp only [Role.lexeme, after_valueLexeme]
  rw [if_neg value, if_neg value]
  by_cases start : c = '['
  · rw [if_pos start, if_pos start]
    rfl
  rw [if_neg start, if_neg start]
  by_cases stop : c = ']'
  · rw [if_pos stop, if_pos stop]
    rfl
  rw [if_neg stop, if_neg stop]
  by_cases assign : c = '='
  · rw [if_pos assign, if_pos assign]
    rfl
  rw [if_neg assign, if_neg assign]
  by_cases name : isNameChar c
  · rw [if_pos name, if_pos name]
    simp only [Role.lexeme]
    cases s.inContainer <;> rfl
  · rw [if_neg name, if_neg name]
    rfl

lemma quotedTail_isPrefix (escaped : Bool) (cs : List Char) : quotedTail escaped cs <+: cs := by
  induction cs generalizing escaped with
  | nil => exact List.prefix_refl _
  | cons c cs ih =>
    unfold quotedTail
    split
    · exact List.nil_prefix
    split
    · exact ⟨cs, rfl⟩
    · exact List.cons_prefix_cons.mpr ⟨rfl, ih _⟩

lemma trimEnd_isPrefix (cs : List Char) : Text.trimEnd cs <+: cs :=
  ⟨_, Text.trimEnd_append_blanks cs⟩

lemma valueLexeme_isPrefix (cs : List Char) : (valueLexeme cs).chars <+: cs := by
  unfold valueLexeme
  split
  · exact List.cons_prefix_cons.mpr ⟨rfl, quotedTail_isPrefix false _⟩
  · refine (trimEnd_isPrefix _).trans ?_
    exact List.takeWhile_prefix _

/-- A lexeme is a stretch of the text that it starts. -/
lemma lexeme_isPrefix (r : Role) (inContainer : Bool) (c : Char) (cs : List Char) :
    (r.lexeme inContainer c cs).chars <+: c :: cs := by
  cases r with
  | comment => exact List.takeWhile_prefix _
  | value => exact valueLexeme_isPrefix _
  | name => exact List.takeWhile_prefix _
  | _ => exact ⟨cs, rfl⟩

/-- In state `s`, a text that begins with the characters of `l` and goes on with `rest` has `l` as its
first lexeme. -/
def Starts (s : LineState) (l : Lexeme) (rest : List Char) : Prop :=
  ∃ c cs, l.chars ++ rest = c :: cs ∧ (role s.afterAssign c).lexeme s.inContainer c cs = l

/-- The kind of a lexeme tells how it starts. -/
lemma Starts.inversion {s : LineState} {l : Lexeme} {rest : List Char} (h : Starts s l rest) :
    ∃ c cs, l.chars ++ rest = c :: cs ∧ role s.afterAssign c = Role.ofKind l.kind? ∧
      (Role.ofKind l.kind?).lexeme s.inContainer c cs = l := by
  obtain ⟨c, cs, text, rfl⟩ := h
  exact ⟨c, cs, text, (Role.ofKind_lexeme ..).symm, by rw [Role.ofKind_lexeme]⟩

lemma lexemes_of_starts {s : LineState} {l : Lexeme} {rest : List Char} (h : Starts s l rest) :
    lexemes s (l.chars ++ rest) = l :: lexemes (s.after l.kind?) rest := by
  obtain ⟨c, cs, text, first⟩ := h
  rw [text, lexemes, firstLexeme_eq, first, ← text, List.drop_left]

lemma lexemes_eq_cons {s : LineState} {cs : List Char} {l : Lexeme} {ls : List Lexeme}
    (h : lexemes s cs = l :: ls) :
    ∃ rest, cs = l.chars ++ rest ∧ Starts s l rest ∧ ls = lexemes (s.after l.kind?) rest := by
  cases cs with
  | nil => simp [lexemes] at h
  | cons c cs =>
    obtain ⟨rest, text⟩ := lexeme_isPrefix (role s.afterAssign c) s.inContainer c cs
    rw [lexemes, firstLexeme_eq] at h
    obtain ⟨first, tail⟩ := List.cons.inj h
    dsimp only at first tail
    rw [first] at text tail
    refine ⟨rest, text.symm, ⟨c, cs, text, first⟩, ?_⟩
    rw [← tail, ← text, List.drop_left]

/-- The lexemes of a text put together are the text. -/
theorem charsOf_lexemes (s : LineState) (cs : List Char) : charsOf (lexemes s cs) = cs := by
  generalize h : lexemes s cs = ls
  induction ls generalizing s cs with
  | nil =>
    cases cs with
    | nil => rfl
    | cons c cs => rw [lexemes] at h; cases h
  | cons l ls ih =>
    obtain ⟨rest, rfl, -, tail⟩ := lexemes_eq_cons h
    rw [charsOf_cons, ih _ _ tail.symm]

/-- Reading can be broken off after any lexeme and taken up again. -/
theorem lexemes_eq_append {s : LineState} {cs : List Char} {ls ms : List Lexeme}
    (h : lexemes s cs = ls ++ ms) :
    cs = charsOf ls ++ charsOf ms ∧ lexemes (s.afterAll ls) (charsOf ms) = ms := by
  induction ls generalizing s cs with
  | nil =>
    rw [List.nil_append] at h
    subst h
    simp [charsOf_lexemes]
  | cons l ls ih =>
    obtain ⟨rest, rfl, -, tail⟩ := lexemes_eq_cons h
    obtain ⟨rfl, resumed⟩ := ih tail.symm
    exact ⟨by simp, resumed⟩

/-- At most so many lexemes; for evaluation, since this recursion runs on the bound. -/
def lexemesWithin : Nat → LineState → List Char → List Lexeme
  | 0, _, _ => []
  | _ + 1, _, [] => []
  | n + 1, s, c :: cs =>
    (firstLexeme s c cs).1 ::
      lexemesWithin n (firstLexeme s c cs).2 ((c :: cs).drop (firstLexeme s c cs).1.chars.length)

lemma lexemesWithin_eq {n : Nat} {s : LineState} {cs : List Char} (h : s.pending cs ≤ n) :
    lexemesWithin n s cs = lexemes s cs := by
  induction n generalizing s cs with
  | zero =>
    cases cs with
    | nil => simp [lexemesWithin, lexemes]
    | cons c cs => simp [LineState.pending] at h
  | succ n ih =>
    cases cs with
    | nil => simp [lexemesWithin, lexemes]
    | cons c cs =>
      have smaller := pending_firstLexeme_lt s c cs
      rw [lexemesWithin, lexemes, ih (by omega)]

/-- The lexemes of a text as they can be computed. -/
lemma lexemes_eq_within (s : LineState) (cs : List Char) :
    lexemes s cs = lexemesWithin (2 * cs.length + 1) s cs := by
  refine (lexemesWithin_eq ?_).symm
  have flag : ∀ b : Bool, b.toNat ≤ 1 := by decide
  have := flag s.afterAssign
  unfold LineState.pending
  omega

section Stretches
variable {p : Char → Bool} {xs ys zs : List Char}

/-- A stretch that stops inside `xs` does so whatever follows. -/
lemma takeWhile_append_of_stop (stop : ∃ x ∈ xs, p x = false) (ys : List Char) :
    (xs ++ ys).takeWhile p = xs.takeWhile p := by
  induction xs with
  | nil =>
    obtain ⟨x, hx, -⟩ := stop
    cases hx
  | cons c xs ih =>
    rw [List.cons_append, List.takeWhile_cons, List.takeWhile_cons]
    split
    next goes_on =>
      obtain ⟨x, hx, stops⟩ := stop
      rcases List.mem_cons.mp hx with rfl | hx
      · rw [goes_on] at stops
        cases stops
      · rw [ih ⟨x, hx, stops⟩]
    next => rfl

/-- A stretch stops inside `xs` if a part of `xs` is left. -/
lemma exists_stop (h : xs = (xs ++ ys).takeWhile p ++ zs) (left : zs ≠ []) : ∃ x ∈ xs, p x = false := by
  by_contra none_stops
  have all : ∀ x ∈ xs, p x = true := by
    intro x hx
    by_contra stops
    exact none_stops ⟨x, hx, by simpa using stops⟩
  rw [List.takeWhile_append_of_pos all, List.append_assoc, List.self_eq_append_right] at h
  exact left (List.append_eq_nil_iff.mp h).2

/-- A stretch that leaves a part of `xs` is the same whatever follows. -/
lemma takeWhile_append_of_left (h : xs = (xs ++ ys).takeWhile p ++ zs) (left : zs ≠ []) (ys' : List Char) :
    (xs ++ ys').takeWhile p = (xs ++ ys).takeWhile p := by
  have stop := exists_stop h left
  rw [takeWhile_append_of_stop stop, takeWhile_append_of_stop stop]

/-- A stretch ends where it has to. -/
lemma stop_of_takeWhile_append (h : xs.takeWhile p ++ ys = xs) : ∀ x ∈ ys.head?, p x = false := by
  have behind : ys = xs.dropWhile p :=
    List.append_cancel_left (h.trans List.takeWhile_append_dropWhile.symm)
  intro x hx
  have stops := List.head?_dropWhile_not p xs
  rw [← behind, hx] at stops
  exact stops

lemma quotedTail_append_of_left {escaped : Bool} (h : xs = quotedTail escaped (xs ++ ys) ++ zs)
    (left : zs ≠ []) (ys' : List Char) : quotedTail escaped (xs ++ ys') = quotedTail escaped (xs ++ ys) := by
  induction xs generalizing escaped with
  | nil => exact absurd (List.append_eq_nil_iff.mp h.symm).2 left
  | cons c xs ih =>
    simp only [List.cons_append, quotedTail] at h ⊢
    split
    · rfl
    split
    · rfl
    · rename_i hn hq
      rw [if_neg hn, if_neg hq, List.cons_append] at h
      rw [ih (List.cons.inj h).2]

end Stretches

/-- All after a trimmed value is blank. -/
lemma isBlank_of_trimEnd {cs rest : List Char} (h : cs = Text.trimEnd cs ++ rest) :
    ∀ x ∈ rest, Text.isBlank x = true := by
  intro x hx
  have tail : rest = (cs.reverse.takeWhile Text.isBlank).reverse :=
    List.append_cancel_left (h.symm.trans (Text.trimEnd_append_blanks cs).symm)
  rw [tail, List.mem_reverse] at hx
  exact List.mem_takeWhile_imp hx

/-- Characters that no value reaches over: line breaks, and all that is not blank. -/
def isSolid (c : Char) : Bool := c == '\n' || !Text.isBlank c

lemma valueLexeme_unquoted {c : Char} (unquoted : c ≠ '"') (cs : List Char) :
    valueLexeme (c :: cs) =
      ⟨some (valueKind (Text.trimEnd ((c :: cs).takeWhile isValueChar))),
        Text.trimEnd ((c :: cs).takeWhile isValueChar)⟩ := by
  unfold valueLexeme
  split
  · rename_i same
    exact absurd (List.cons.inj same).1 unquoted
  · rfl

/-- An unquoted value stops before any solid character that is not in it. -/
lemma exists_stop_of_solid {xs rest between : List Char}
    (h : xs = Text.trimEnd ((xs ++ rest).takeWhile isValueChar) ++ between)
    (solid : ∃ x ∈ between, isSolid x = true) : ∃ y ∈ xs, isValueChar y = false := by
  obtain ⟨x, hx, hs⟩ := solid
  by_contra none_stops
  have all : ∀ y ∈ xs, isValueChar y = true := by
    intro y hy
    by_contra stops
    exact none_stops ⟨y, hy, by simpa using stops⟩
  -- all of `between` would be among the blanks cut off the end of the value
  have raw : (xs ++ rest).takeWhile isValueChar = xs ++ rest.takeWhile isValueChar :=
    List.takeWhile_append_of_pos all
  have parted : (xs ++ rest).takeWhile isValueChar =
      Text.trimEnd ((xs ++ rest).takeWhile isValueChar) ++ (between ++ rest.takeWhile isValueChar) := by
    rw [← List.append_assoc, ← h, raw]
  have blank := isBlank_of_trimEnd parted x (List.mem_append_left _ hx)
  have inside : isValueChar x = true := all x (h ▸ List.mem_append_right _ hx)
  simp only [isSolid, blank, Bool.not_true, Bool.or_false, beq_iff_eq] at hs
  rw [hs] at inside
  cases inside

lemma valueLexeme_append_of_solid {c : Char} {cs rest between : List Char}
    (h : c :: cs = (valueLexeme (c :: (cs ++ rest))).chars ++ between)
    (solid : ∃ x ∈ between, isSolid x = true) (rest' : List Char) :
    valueLexeme (c :: (cs ++ rest')) = valueLexeme (c :: (cs ++ rest)) := by
  by_cases quote : c = '"'
  · subst quote
    obtain ⟨x, hx, -⟩ := solid
    simp only [valueLexeme, List.cons_append] at h ⊢
    rw [quotedTail_append_of_left (List.cons.inj h).2 (List.ne_nil_of_mem hx)]
  · rw [valueLexeme_unquoted quote] at h ⊢
    rw [valueLexeme_unquoted quote]
    have stop : ∃ y ∈ c :: cs, isValueChar y = false := exists_stop_of_solid h solid
    have same : (c :: (cs ++ rest')).takeWhile isValueChar = (c :: (cs ++ rest)).takeWhile isValueChar :=
      (takeWhile_append_of_stop stop rest').trans (takeWhile_append_of_stop stop rest).symm
    rw [same]

/-- A lexeme does not depend on what stands beyond a solid character. -/
lemma lexeme_append_of_solid {r : Role} {inContainer : Bool} {c : Char} {cs rest between : List Char}
    (h : c :: cs = (r.lexeme inContainer c (cs ++ rest)).chars ++ between)
    (solid : ∃ x ∈ between, isSolid x = true) (rest' : List Char) :
    r.lexeme inContainer c (cs ++ rest') = r.lexeme inContainer c (cs ++ rest) := by
  have left : between ≠ [] := by
    obtain ⟨x, hx, -⟩ := solid
    exact List.ne_nil_of_mem hx
  have stretch : ∀ p : Char → Bool, c :: cs = (c :: (cs ++ rest)).takeWhile p ++ between →
      (c :: (cs ++ rest')).takeWhile p = (c :: (cs ++ rest)).takeWhile p := by
    intro p hp
    have hp' : c :: cs = ((c :: cs) ++ rest).takeWhile p ++ between := hp
    exact takeWhile_append_of_left hp' left rest'
  cases r with
  | comment =>
    simp only [Role.lexeme] at h ⊢
    rw [stretch _ h]
  | value => exact valueLexeme_append_of_solid h solid rest'
  | name =>
    simp only [Role.lexeme] at h ⊢
    rw [stretch _ h]
  | _ => rfl

/-- What follows a lexeme can be replaced where it comes out the same. -/
lemma Starts.replace {s : LineState} {l : Lexeme} {between rest rest' : List Char}
    (h : Starts s l (between ++ rest)) (nonempty : l.chars ++ between ≠ [])
    (same : ∀ (r : Role) c cs, c :: cs = l.chars ++ between →
      r.lexeme s.inContainer c (cs ++ rest) = l → r.lexeme s.inContainer c (cs ++ rest') = l) :
    Starts s l (between ++ rest') := by
  obtain ⟨c, cs, text, first⟩ := h
  obtain ⟨c', v, front⟩ := List.exists_cons_of_ne_nil nonempty
  rw [← List.append_assoc, front, List.cons_append] at text
  obtain ⟨rfl, rfl⟩ := List.cons.inj text
  exact ⟨c', v ++ rest', by rw [← List.append_assoc, front, List.cons_append], same _ c' v front.symm first⟩

lemma Starts.append_of_solid {s : LineState} {l : Lexeme} {between rest : List Char}
    (h : Starts s l (between ++ rest)) (solid : ∃ x ∈ between, isSolid x = true) (rest' : List Char) :
    Starts s l (between ++ rest') := by
  refine h.replace ?_ ?_
  · obtain ⟨x, hx, -⟩ := solid
    exact List.append_ne_nil_of_right_ne_nil _ (List.ne_nil_of_mem hx)
  · intro r c cs front first
    rw [lexeme_append_of_solid (by rw [first, front]) solid, first]

/-- What follows some lexemes can be replaced where each of them still starts in its place. -/
theorem lexemes_replace {s : LineState} {cs rest : List Char} {ls ms : List Lexeme}
    (h : lexemes s cs = ls ++ ms)
    (stays : ∀ front l back, ls = front ++ l :: back →
      Starts (s.afterAll front) l (charsOf back ++ charsOf ms) →
        Starts (s.afterAll front) l (charsOf back ++ rest)) :
    lexemes s (charsOf ls ++ rest) = ls ++ lexemes (s.afterAll ls) rest := by
  induction ls generalizing s cs with
  | nil => rfl
  | cons l ls ih =>
    obtain ⟨behind, rfl, starts, tail⟩ := lexemes_eq_cons h
    have text : behind = charsOf ls ++ charsOf ms := by
      rw [← charsOf_lexemes (s.after l.kind?) behind, ← tail]
      exact charsOf_append ls ms
    rw [text] at starts
    have first : Starts s l (charsOf ls ++ rest) := stays [] l ls rfl starts
    have later := ih tail.symm fun front k back split => stays (l :: front) k back (by rw [split]; rfl)
    rw [charsOf_cons, List.append_assoc, lexemes_of_starts first, later]
    rfl

/-- A text can be changed after a lexeme with a solid character, as long as that lexeme still ends in
the same place. -/
theorem lexemes_append_of_last {s : LineState} {cs : List Char} {ls ms : List Lexeme} {l : Lexeme}
    (h : lexemes s cs = ls ++ l :: ms) (solid : ∃ x ∈ l.chars, isSolid x = true) {rest : List Char}
    (last : Starts (s.afterAll ls) l rest) :
    lexemes s (charsOf ls ++ (l.chars ++ rest)) =
      ls ++ l :: lexemes ((s.afterAll ls).after l.kind?) rest := by
  rw [lexemes_replace h, lexemes_of_starts last]
  intro front k back _ starts
  obtain ⟨x, hx, hs⟩ := solid
  rw [charsOf_cons, ← List.append_assoc] at starts
  rw [← List.append_assoc]
  exact starts.append_of_solid ⟨x, List.mem_append_right _ hx, hs⟩ rest

section Names

lemma role_eq_name_iff {afterAssign : Bool} {c : Char} :
    role afterAssign c = .name ↔ afterAssign = false ∧ isNameChar c = true := by
  constructor
  · intro h
    unfold role at h
    split_ifs at h with _ _ _ value _ _ _ name
    exact ⟨by simpa using value, name⟩
  · rintro ⟨rfl, name⟩
    have other : ∀ x, isNameChar x = false → c ≠ x := by
      rintro x unnamed rfl
      rw [name] at unnamed
      cases unnamed
    have newline := other '\n' (by decide)
    have open_bracket := other '[' (by decide)
    have close_bracket := other ']' (by decide)
    have equals := other '=' (by decide)
    have gap : isGap c = false := by
      simp [isGap, other ' ' (by decide), other '\t' (by decide), other '\r' (by decide)]
    have mark : isCommentMark c = false := by
      simp [isCommentMark, other '#' (by decide), other ';' (by decide)]
    simp [role, newline, gap, mark, open_bracket, close_bracket, equals, name]

/-- The kind of names on this part of the line. -/
def LineState.nameKind (s : LineState) : Kind := if s.inContainer then .containerName else .keyName

lemma starts_name {s : LineState} {chars rest : List Char} (ready : s.afterAssign = false)
    (nonempty : chars ≠ []) (names : ∀ x ∈ chars, isNameChar x = true)
    (stop : ∀ x ∈ rest.head?, isNameChar x = false) : Starts s ⟨some s.nameKind, chars⟩ rest := by
  obtain ⟨c, cs, rfl⟩ := List.exists_cons_of_ne_nil nonempty
  have name : role s.afterAssign c = .name := role_eq_name_iff.mpr ⟨ready, names c (by simp)⟩
  have ends : rest.takeWhile isNameChar = [] := by
    cases rest with
    | nil => rfl
    | cons x rest => rw [List.takeWhile_cons, stop x rfl]; rfl
  have whole : ((c :: cs) ++ rest).takeWhile isNameChar = c :: cs := by
    rw [List.takeWhile_append_of_pos names, ends, List.append_nil]
  refine ⟨c, cs ++ rest, rfl, ?_⟩
  rw [name]
  exact congrArg (Lexeme.mk (some s.nameKind)) whole

/-- A name is read where no value is waited for, and goes as far as it can. -/
lemma Starts.of_name {s : LineState} {l : Lexeme} {rest : List Char} (h : Starts s l rest)
    (name : l.kind? = some .containerName ∨ l.kind? = some .keyName) :
    s.afterAssign = false ∧ l.kind? = some s.nameKind ∧ l.chars ≠ [] ∧
      (∀ x ∈ l.chars, isNameChar x = true) ∧ ∀ x ∈ rest.head?, isNameChar x = false := by
  obtain ⟨c, cs, text, hr, first⟩ := h.inversion
  have named : Role.ofKind l.kind? = .name := by rcases name with name | name <;> rw [name] <;> rfl
  rw [named] at hr first
  obtain ⟨ready, start⟩ := role_eq_name_iff.mp hr
  subst first
  refine ⟨ready, rfl, ?_, fun x hx => List.mem_takeWhile_imp hx, stop_of_takeWhile_append text⟩
  rw [Role.lexeme, List.takeWhile_cons, if_pos start]
  exact List.cons_ne_nil _ _

/-- Only a value can be empty. -/
lemma Starts.nonempty {s : LineState} {l : Lexeme} {rest : List Char} (h : Starts s l rest)
    (kind : ∀ literal ∈ Kind.literals, l.kind? ≠ some literal) : l.chars ≠ [] := by
  obtain ⟨c, cs, text, rfl⟩ := h
  cases hr : role s.afterAssign c with
  | comment =>
    have inner : c ≠ '\n' := by
      rintro rfl
      cases hr
    simp [Role.lexeme, inner]
  | value =>
    obtain ⟨literal, member, hk⟩ := valueLexeme_kind? (c :: cs)
    rw [hr] at kind
    exact absurd hk (kind literal member)
  | name => simp [Role.lexeme, (role_eq_name_iff.mp hr).2]
  | _ => simp [Role.lexeme]

end Names

section Lines

lemma takeWhile_append_cons_of_stop {p : Char → Bool} {stop : Char} (h : p stop = false)
    (xs ys : List Char) : (xs ++ stop :: ys).takeWhile p = xs.takeWhile p := by
  induction xs with
  | nil => rw [List.nil_append, List.takeWhile_cons, h]; rfl
  | cons c xs ih => rw [List.cons_append, List.takeWhile_cons, List.takeWhile_cons, ih]

lemma quotedTail_append_lineBreak (escaped : Bool) (cs rest : List Char) :
    quotedTail escaped (cs ++ '\n' :: rest) = quotedTail escaped cs := by
  induction cs generalizing escaped with
  | nil => rfl
  | cons c cs ih =>
    rw [List.cons_append, quotedTail, quotedTail]
    simp only [ih]

lemma valueLexeme_append_lineBreak (c : Char) (cs rest : List Char) :
    valueLexeme (c :: (cs ++ '\n' :: rest)) = valueLexeme (c :: cs) := by
  by_cases quote : c = '"'
  · subst quote
    simp only [valueLexeme, quotedTail_append_lineBreak]
  · rw [valueLexeme_unquoted quote, valueLexeme_unquoted quote, ← List.cons_append,
      takeWhile_append_cons_of_stop (by decide)]

/-- No lexeme reaches over a line break. -/
lemma lexeme_append_lineBreak (r : Role) (inContainer : Bool) (c : Char) (cs rest : List Char) :
    r.lexeme inContainer c (cs ++ '\n' :: rest) = r.lexeme inContainer c cs := by
  cases r with
  | comment =>
    simp only [Role.lexeme, ← List.cons_append]
    rw [takeWhile_append_cons_of_stop (by decide)]
  | value => exact valueLexeme_append_lineBreak c cs rest
  | name =>
    simp only [Role.lexeme, ← List.cons_append]
    rw [takeWhile_append_cons_of_stop (by decide)]
  | _ => rfl

lemma Starts.append_lineBreak {s : LineState} {l : Lexeme} {rest : List Char} (h : Starts s l rest)
    (below : List Char) : Starts s l (rest ++ '\n' :: below) := by
  obtain ⟨c, cs, text, first⟩ := h
  refine ⟨c, cs ++ '\n' :: below, ?_, ?_⟩
  · rw [← List.append_assoc, text, List.cons_append]
  · rw [lexeme_append_lineBreak, first]

def lineBreakLexeme : Lexeme := ⟨some .lineBreak, ['\n']⟩

lemma starts_lineBreak (s : LineState) (below : List Char) : Starts s lineBreakLexeme below :=
  ⟨'\n', below, rfl, rfl⟩

lemma lexemes_lineBreak (s : LineState) (below : List Char) :
    lexemes s ('\n' :: below) = lineBreakLexeme :: lexemes .fresh below :=
  lexemes_of_starts (starts_lineBreak s below)

/-- A comment goes to the end of its line. -/
lemma Starts.of_comment {s : LineState} {l : Lexeme} {rest : List Char} (h : Starts s l rest)
    (comment : l.kind? = some .comment) : ∀ x ∈ rest.head?, x = '\n' := by
  obtain ⟨c, cs, text, -, first⟩ := h.inversion
  rw [comment] at first
  subst first
  intro x hx
  simpa using stop_of_takeWhile_append text x hx

/-- The lines of a text are read each on its own. -/
theorem lexemes_append_lineBreak (s : LineState) (cs below : List Char) :
    lexemes s (cs ++ '\n' :: below) = lexemes s cs ++ lineBreakLexeme :: lexemes .fresh below := by
  generalize h : lexemes s cs = ls
  induction ls generalizing s cs with
  | nil =>
    have empty : cs = [] := by rw [← charsOf_lexemes s cs, h]; rfl
    subst empty
    exact lexemes_lineBreak s below
  | cons l ls ih =>
    obtain ⟨rest, rfl, starts, tail⟩ := lexemes_eq_cons h
    rw [List.append_assoc, lexemes_of_starts (starts.append_lineBreak below), ih _ _ tail.symm]
    rfl

/-- A gap is one character, whatever follows it. -/
lemma Starts.of_gap {s : LineState} {l : Lexeme} {rest : List Char} (h : Starts s l rest)
    (gap : l.kind? = none) (rest' : List Char) : Starts s l rest' := by
  obtain ⟨c, cs, text, hr, first⟩ := h.inversion
  rw [gap] at hr first
  subst first
  exact ⟨c, rest', rfl, by rw [hr]; rfl⟩

lemma Starts.of_lineBreak {s : LineState} {l : Lexeme} {rest : List Char} (h : Starts s l rest)
    (lineBreak : l.kind? = some .lineBreak) : l = lineBreakLexeme := by
  obtain ⟨c, cs, text, hr, first⟩ := h.inversion
  rw [lineBreak] at hr first
  have newline : c = '\n' := by
    by_contra other
    rw [role, if_neg other, Role.ofKind] at hr
    split_ifs at hr
  rw [← first, newline]
  rfl

/-- At the start of a line, nothing depends on what follows, and nothing that follows on what was there. -/
theorem lexemes_append_of_lineStart {cs : List Char} {ls ms : List Lexeme} (h : lexemes .fresh cs = ls ++ ms)
    (line : ∀ kind ∈ (ls.filterMap (·.kind?)).getLast?, kind = .lineBreak) :
    LineState.fresh.afterAll ls = .fresh ∧
      ∀ rest, lexemes .fresh (charsOf ls ++ rest) = ls ++ lexemes .fresh rest := by
  -- from the end: gaps are taken off one by one, up to the line break
  induction ls using List.reverseRecOn generalizing ms with
  | nil => exact ⟨rfl, fun rest => rfl⟩
  | append_singleton ls l ih =>
    rw [List.append_assoc, List.singleton_append] at h
    obtain ⟨rest, -, starts, -⟩ := lexemes_eq_cons (lexemes_eq_append h).2
    rw [List.filterMap_append] at line
    cases kind? : l.kind? with
    | none =>
      obtain ⟨state, resume⟩ := ih h (by simpa [kind?] using line)
      rw [state] at starts
      refine ⟨by rw [LineState.afterAll_append, state, LineState.afterAll_cons, kind?]; rfl, fun rest' => ?_⟩
      rw [charsOf_append, charsOf_cons, charsOf_nil, List.append_nil, List.append_assoc, resume,
        lexemes_of_starts (starts.of_gap kind? rest'), kind?]
      simp [LineState.after]
    | some kind =>
      obtain rfl : kind = .lineBreak := line kind (by simp [kind?])
      obtain rfl := starts.of_lineBreak kind?
      refine ⟨by rw [LineState.afterAll_append]; rfl, fun rest' => ?_⟩
      rw [charsOf_append, charsOf_cons, charsOf_nil, List.append_nil, List.append_assoc,
        lexemes_append_of_last h ⟨'\n', by simp [lineBreakLexeme], rfl⟩ (starts_lineBreak _ rest'),
        List.append_assoc]
      rfl

end Lines

end Keyfile
