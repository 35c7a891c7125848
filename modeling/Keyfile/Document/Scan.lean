import Keyfile.Document.Tree
import Keyfile.Text.Alphanumeric
import Keyfile.Text.Blank
import Keyfile.Text.Floating

/-! Texts classified into lexemes. A lexeme is a stretch of the text with its kind, or without one for
the blanks that no node represents. The lexemes of a text put together are the text. -/
namespace Keyfile

/-- What the scanner remembers of the line so far. -/
structure LineState where
  /-- A bracket was opened and not closed. -/
  inContainer : Bool
  /-- An equals sign waits for its value. -/
  afterAssign : Bool
  deriving DecidableEq, Repr, Inhabited

/-- The state in which a line starts. -/
def LineState.fresh : LineState := ⟨false, false⟩

/-- A stretch of the text; without a kind it is skipped. -/
structure Lexeme where
  kind? : Option Kind
  chars : List Char
  deriving DecidableEq, Repr

/-- Blanks that are skipped between lexemes. -/
def isGap (c : Char) : Bool := c == ' ' || c == '\t' || c == '\r'

/-- Characters that start a comment. -/
def isCommentMark (c : Char) : Bool := c == '#' || c == ';'

/-- Letters and digits of any script, and the five signs that names may hold. -/
def isNameChar (c : Char) : Bool :=
  Text.isAlphanumeric c || c == '_' || c == '-' || c == '.' || c == '*' || c == '$'

/-- Characters of an unquoted value: it runs to the end of its line or to a comment. -/
def isValueChar (c : Char) : Bool := c != '\n' && !isCommentMark c

/-- The rest of a quoted value after its opening quote: through the closing quote, or to the end of
the line without one. A backslash takes the meaning of the character after it. -/
def quotedTail : Bool → List Char → List Char
  | _, [] => []
  | escaped, c :: cs =>
    if c == '\n' then []
    else if c == '"' && !escaped then [c]
    else c :: quotedTail (c == '\\' && !escaped) cs

/-- Whether a value is a number: a digit after any signs and points, in a floating point literal. -/
def isNumber (value : List Char) : Bool :=
  let digits := (value.dropWhile fun c => c == '+' || c == '-').dropWhile (· == '.')
  digits.head?.any Char.isDigit && (Text.magnitude? value).isSome

/-- Kind of an unquoted value. -/
def valueKind (value : List Char) : Kind :=
  if value = "true".toList ∨ value = "false".toList then .boolean
  else if isNumber value then .number
  else .string

/-- The value at the start of a text. An unquoted one leaves the blanks at its end out, so it may be
empty. -/
def valueLexeme : List Char → Lexeme
  | '"' :: cs => ⟨some .string, '"' :: quotedTail false cs⟩
  | cs =>
    let value := Text.trimEnd (cs.takeWhile isValueChar)
    ⟨some (valueKind value), value⟩

/-- The lexeme that the character `c`, followed by `cs`, starts, and the state after it. -/
def firstLexeme (state : LineState) (c : Char) (cs : List Char) : Lexeme × LineState :=
  if c = '\n' then (⟨some .lineBreak, [c]⟩, .fresh)
  else if isGap c then (⟨none, [c]⟩, state)
  else if isCommentMark c then (⟨some .comment, (c :: cs).takeWhile (· != '\n')⟩, state)
  else if state.afterAssign then (valueLexeme (c :: cs), { state with afterAssign := false })
  else if c = '[' then (⟨some .containerStart, [c]⟩, { state with inContainer := true })
  else if c = ']' then (⟨some .containerEnd, [c]⟩, { state with inContainer := false })
  else if c = '=' then (⟨some .assign, [c]⟩, { state with afterAssign := true })
  else if isNameChar c then
    (⟨some (if state.inContainer then .containerName else .keyName), (c :: cs).takeWhile isNameChar⟩, state)
  else (⟨some .unclassified, [c]⟩, state)

/-- What is left to do: characters to read, or a value to settle before the next one is read. -/
def LineState.pending (state : LineState) (cs : List Char) : Nat :=
  2 * cs.length + state.afterAssign.toNat

theorem pending_firstLexeme_lt (state : LineState) (c : Char) (cs : List Char) :
    (firstLexeme state c cs).2.pending ((c :: cs).drop (firstLexeme state c cs).1.chars.length)
      < state.pending (c :: cs) := by
  have flag : ∀ b : Bool, b.toNat ≤ 1 := by decide
  have drop_lt : ∀ (x : Char) (xs : List Char) (s : LineState),
      s.pending ((c :: cs).drop (x :: xs).length) < state.pending (c :: cs) := by
    intro x xs s
    have := flag s.afterAssign
    simp only [LineState.pending, List.length_drop, List.length_cons]
    omega
  rw [firstLexeme]
  split
  · exact drop_lt _ _ _
  split
  · exact drop_lt _ _ _
  split
  next mark =>
    have : (c != '\n') = true := by
      simp only [isCommentMark, Bool.or_eq_true, beq_iff_eq] at mark
      rcases mark with rfl | rfl <;> rfl
    rw [List.takeWhile_cons, if_pos this]
    exact drop_lt _ _ _
  split
  next after =>
    have flagged : state.afterAssign.toNat = 1 := by rw [after]; rfl
    simp only [LineState.pending, List.length_drop, Bool.toNat_false]
    omega
  split
  · exact drop_lt _ _ _
  split
  · exact drop_lt _ _ _
  split
  · exact drop_lt _ _ _
  split
  next name =>
    rw [List.takeWhile_cons, if_pos name]
    exact drop_lt _ _ _
  · exact drop_lt _ _ _

/-- All lexemes of a text that continues a line in the given state. -/
def lexemes (state : LineState) : List Char → List Lexeme
  | [] => []
  | c :: cs =>
    let first := firstLexeme state c cs
    first.1 :: lexemes first.2 ((c :: cs).drop first.1.chars.length)
termination_by cs => state.pending cs
decreasing_by exact pending_firstLexeme_lt state c cs

/-- The nodes of lexemes that start at a byte offset. -/
def layout (offset : Nat) : List Lexeme → List Node
  | [] => []
  | l :: ls =>
    let stop := offset + Text.bytes l.chars
    match l.kind? with
    | none => layout stop ls
    | some kind => ⟨kind, ⟨offset, stop⟩, []⟩ :: layout stop ls

/-- The document of a text: a flat tree, with every lexeme that has a kind right below the root. -/
def scan (text : String) : Document := ⟨text, layout 0 (lexemes .fresh text.toList)⟩

end Keyfile
