import Keyfile.Data.Json.Printer
import Keyfile.Data.Json.Reader
import Keyfile.Proofs.Decimals

/-! JSON written and read again. Data that JSON can tell apart is read back from the text it is written as. -/
namespace Keyfile.Json

section Strings

/-- The parts of a string literal that stand for a character: itself, or its code if it is a control character. -/
def Part.Spells (part : Part) (c : Char) : Prop := part = .char c ∨ part = .unit c.toNat ∧ c.toNat < 0x20

lemma parts?_char {c : Char} (quote : c ≠ '"') (backslash : c ≠ '\\') (printable : ¬c.toNat < 0x20) (cs : List Char) :
    parts? (c :: cs) = (parts? cs).map (Prod.map (.char c :: ·) id) := by
  rw [parts?]
  · rw [if_neg printable]
    cases parts? cs <;> rfl
  · simpa using quote
  · simp [backslash]
  · simp [backslash]

lemma parts?_short {e c : Char} (short : shortEscape? e = some c) (cs : List Char) :
    parts? ('\\' :: e :: cs) = (parts? cs).map (Prod.map (.char c :: ·) id) := by
  have other : e ≠ 'u' := by
    rintro rfl
    cases short
  rw [parts?]
  · rw [short]
    cases parts? cs <;> rfl
  · simp [other]

lemma parts?_code {a b c d : Char} {code : Nat} (hex : hex? [a, b, c, d] = some code) (cs : List Char) :
    parts? ('\\' :: 'u' :: a :: b :: c :: d :: cs) = (parts? cs).map (Prod.map (.unit code :: ·) id) := by
  rw [parts?, hex]
  cases parts? cs <;> rfl

lemma hex?_hexPair {n : Nat} (small : n < 0x20) : hex? ('0' :: '0' :: hexPair n) = some n := by
  have all : ∀ n < 0x20, hex? ('0' :: '0' :: hexPair n) = some n := by decide
  exact all n small

/-- An escaped character is read as one part. -/
lemma exists_part (c : Char) :
    ∃ part : Part, part.Spells c ∧
      ∀ cs, parts? (escapeChar c ++ cs) = (parts? cs).map (Prod.map (part :: ·) id) := by
  have short : ∀ e, shortEscape? e = some c → ∃ part : Part, part.Spells c ∧
      ∀ cs, parts? (['\\', e] ++ cs) = (parts? cs).map (Prod.map (part :: ·) id) :=
    fun e h => ⟨.char c, .inl rfl, parts?_short h⟩
  unfold escapeChar
  split_ifs with quote backslash line carriage tab back feed control
  · exact short '"' (by rw [quote]; rfl)
  · exact short '\\' (by rw [backslash]; rfl)
  · exact short 'n' (by rw [line]; rfl)
  · exact short 'r' (by rw [carriage]; rfl)
  · exact short 't' (by rw [tab]; rfl)
  · exact short 'b' (by rw [back]; rfl)
  · exact short 'f' (by rw [feed]; rfl)
  · exact ⟨.unit c.toNat, .inr ⟨rfl, control⟩, parts?_code (hex?_hexPair control)⟩
  · exact ⟨.char c, .inl rfl, parts?_char quote backslash control⟩

lemma assemble?_cons {part : Part} {c : Char} (h : part.Spells c) (parts : List Part) :
    assemble? (part :: parts) = (assemble? parts).map (c :: ·) := by
  rcases h with rfl | ⟨rfl, control⟩
  · rfl
  · have lead : isLead c.toNat = false := by
      simp only [isLead, Bool.and_eq_false_iff, decide_eq_false_iff_not]
      omega
    have trail : isTrail c.toNat = false := by
      simp only [isTrail, Bool.and_eq_false_iff, decide_eq_false_iff_not]
      omega
    cases parts with
    | nil => simp [assemble?, lead, trail, Char.ofNat_toNat]
    | cons next parts => cases next <;> simp [assemble?, lead, trail, Char.ofNat_toNat]

/-- A quoted text is read back. -/
lemma string?_escaped (s : String) (rest : List Char) :
    string? (s.toList.flatMap escapeChar ++ '"' :: rest) = some (some s, rest) := by
  have read : ∀ cs : List Char, ∃ parts, parts? (cs.flatMap escapeChar ++ '"' :: rest) = some (parts, rest) ∧
      assemble? parts = some cs := by
    intro cs
    induction cs with
    | nil => exact ⟨[], rfl, rfl⟩
    | cons c cs ih =>
      obtain ⟨parts, read, assembled⟩ := ih
      obtain ⟨part, spells, first⟩ := exists_part c
      refine ⟨part :: parts, ?_, ?_⟩
      · rw [List.flatMap_cons, List.append_assoc, first, read]
        rfl
      · rw [assemble?_cons spells, assembled]
        rfl
  obtain ⟨parts, read, assembled⟩ := read s.toList
  rw [string?, read]
  simp only [Option.map_some, assembled, String.ofList_toList]

end Strings

section Numbers

/-- A text that does not go on with a number: it ends, or a mark between values follows. -/
def Closes (rest : List Char) : Prop := ∀ c ∈ rest.head?, c = ',' ∨ c = ']' ∨ c = '\x7d'

variable {rest : List Char}

lemma isDigit_of_closes (closes : Closes rest) : ∀ c ∈ rest.head?, c.isDigit = false := by
  intro c first
  rcases closes c first with rfl | rfl | rfl <;> rfl

lemma wholeDigits?_toDigits (n : Nat) (closes : Closes rest) :
    wholeDigits? (Nat.toDigits 10 n ++ rest) = some (Nat.toDigits 10 n, rest) := by
  cases n with
  | zero => rfl
  | succ n =>
    obtain ⟨c, cs, split, other⟩ := Text.exists_toDigits_eq_cons (Nat.succ_pos n)
    have all : ∀ d ∈ c :: cs, d.isDigit = true := fun d hd =>
      Text.isDigit_of_mem_toDigits (n := n + 1) (by rwa [split])
    obtain ⟨taken, dropped⟩ := Text.span_isDigit_append all (isDigit_of_closes closes)
    rw [split, wholeDigits?]
    · simp only [taken, dropped, List.isEmpty_cons, Bool.false_eq_true, if_false]
    · simp [other]

lemma fraction?_of_closes (closes : Closes rest) : fraction? rest = some ([], rest) := by
  cases rest with
  | nil => rfl
  | cons c rest => rcases closes c rfl with rfl | rfl | rfl <;> rfl

lemma exponent?_of_closes (closes : Closes rest) : exponent? rest = some ([], rest) := by
  cases rest with
  | nil => rfl
  | cons c rest => rcases closes c rfl with rfl | rfl | rfl <;> rfl

/-- Digits are read as a number, negative if a minus sign stands before them. -/
lemma number?_digits (negative : Bool) (n : Nat) (closes : Closes rest) :
    number? ((if negative then ['-'] else []) ++ (Nat.toDigits 10 n ++ rest)) =
      some (numberData negative (Nat.toDigits 10 n) [] [], rest) := by
  have unsigned : ((Nat.toDigits 10 n ++ rest).head? == some '-') = false := by
    obtain ⟨c, cs, split⟩ := List.exists_cons_of_ne_nil (Nat.toDigits_ne_nil (n := n) (b := 10))
    have digit := Text.isDigit_of_mem_toDigits (n := n) (c := c) (by rw [split]; simp)
    have other : c ≠ '-' := by
      rintro rfl
      cases digit
    simpa [split] using other
  cases negative with
  | true =>
    simp only [number?, if_true, List.cons_append, List.nil_append, List.head?_cons, beq_self_eq_true,
      List.tail_cons, wholeDigits?_toDigits n closes, Option.bind_some, fraction?_of_closes closes,
      exponent?_of_closes closes, Option.map_some]
  | false =>
    simp only [number?, Bool.false_eq_true, if_false, List.nil_append, unsigned, wholeDigits?_toDigits n closes,
      Option.bind_some, fraction?_of_closes closes, exponent?_of_closes closes, Option.map_some]

lemma numberData_toDigits {negative : Bool} {n : Nat} {value : Int}
    (signed : (if negative = true then -(n : Int) else n) = value) (proper : negative = false ∨ value ≠ 0)
    (fits : -0x8000000000000000 ≤ value ∧ value < 0x10000000000000000) :
    numberData negative (Nat.toDigits 10 n) [] [] = .int value := by
  simp only [numberData, Text.digitsValue_toDigits, signed]
  rw [if_pos]
  simpa [fits] using proper

/-- An integer that JSON keeps as one is read back. -/
lemma number?_decimal {n : Int} (fits : -0x8000000000000000 ≤ n ∧ n < 0x10000000000000000)
    (closes : Closes rest) : number? (Text.decimal n ++ rest) = some (.int n, rest) := by
  cases n with
  | ofNat n =>
    have data : numberData false (Nat.toDigits 10 n) [] [] = .int (.ofNat n) :=
      numberData_toDigits rfl (.inl rfl) fits
    rw [← data]
    exact number?_digits false n closes
  | negSucc n =>
    have data : numberData true (Nat.toDigits 10 (n + 1)) [] [] = .int (.negSucc n) :=
      numberData_toDigits (Int.neg_ofNat_succ n) (.inr (by simp)) fits
    rw [← data]
    exact number?_digits true (n + 1) closes

end Numbers

section Values

mutual
/-- Data that its JSON tells apart from all other: texts and names are proper, and numbers are integers. -/
def Exact : Data → Prop
  | .null => True
  | .bool _ => True
  | .int n => -0x8000000000000000 ≤ n ∧ n < 0x10000000000000000
  | .real _ => False
  | .text _ => True
  | .garbled => False
  | .list items => ExactItems items
  | .record fields => ExactFields fields
def ExactItems : List Data → Prop
  | [] => True
  | d :: ds => Exact d ∧ ExactItems ds
def ExactFields : List (Option String × Data) → Prop
  | [] => True
  | (name, d) :: fs => name.isSome = true ∧ Exact d ∧ ExactFields fs
end

lemma skipSpace_cons {c : Char} (solid : isSpace c = false) (cs : List Char) : skipSpace (c :: cs) = c :: cs := by
  rw [skipSpace, List.dropWhile_cons, solid]
  rfl

lemma quote_append (s : String) (rest : List Char) :
    quote s ++ rest = '"' :: (s.toList.flatMap escapeChar ++ '"' :: rest) := by
  simp [quote]

lemma scalar?_quote (s : String) (rest : List Char) : scalar? (quote s ++ rest) = some (.text s, rest) := by
  rw [quote_append, scalar?, string?_escaped]
  rfl

/-- A name is read with the colon behind it. -/
lemma name?_quote (name : String) (rest : List Char) :
    name? (quote name ++ ':' :: rest) = some (some name, rest) := by
  have quoted : isSpace '"' = false := rfl
  have colon : isSpace ':' = false := rfl
  rw [quote_append, name?, skipSpace_cons quoted]
  simp only [string?_escaped, Option.bind_some, skipSpace_cons colon]

/-- Written integers start with a digit or a sign. -/
lemma exists_decimal_eq_cons (n : Int) : ∃ c cs, Text.decimal n = c :: cs ∧ (c.isDigit = true ∨ c = '-') := by
  cases n with
  | ofNat n =>
    obtain ⟨c, cs, split⟩ := List.exists_cons_of_ne_nil (Nat.toDigits_ne_nil (n := n) (b := 10))
    exact ⟨c, cs, split, .inl (Text.isDigit_of_mem_toDigits (n := n) (by rw [split]; simp))⟩
  | negSucc n => exact ⟨'-', Nat.toDigits 10 (n + 1), rfl, .inr rfl⟩

lemma ne_of_number {c : Char} (first : c.isDigit = true ∨ c = '-') (x : Char)
    (other : x.isDigit = false ∧ x ≠ '-') : c ≠ x := by
  rintro rfl
  rcases first with digit | sign
  · rw [other.1] at digit
    cases digit
  · exact other.2 sign

lemma isSpace_of_number {c : Char} (first : c.isDigit = true ∨ c = '-') : isSpace c = false := by
  have other := ne_of_number first
  simp [isSpace, other ' ' (by decide), other '\n' (by decide), other '\t' (by decide), other '\r' (by decide)]

/-- A number is not taken for a word or a string. -/
lemma scalar?_eq_number? {c : Char} (first : c.isDigit = true ∨ c = '-') (cs : List Char) :
    scalar? (c :: cs) = number? (c :: cs) := by
  have other := ne_of_number first
  rw [scalar?]
  · simp [Text.after?, (other 'n' (by decide)).symm, (other 't' (by decide)).symm, (other 'f' (by decide)).symm]
  · simpa using other '"' (by decide)

/-- No blank stands before a value, and what starts it does not close a list. -/
lemma exists_write_eq_cons {d : Data} (h : Exact d) : ∃ c cs, write d = c :: cs ∧ isSpace c = false ∧ c ≠ ']' := by
  cases d with
  | null => exact ⟨'n', _, rfl, rfl, by decide⟩
  | bool value =>
    cases value with
    | true => exact ⟨'t', _, rfl, rfl, by decide⟩
    | false => exact ⟨'f', _, rfl, rfl, by decide⟩
  | int n =>
    obtain ⟨c, cs, split, first⟩ := exists_decimal_eq_cons n
    exact ⟨c, cs, split, isSpace_of_number first, ne_of_number first ']' (by decide)⟩
  | real written => exact h.elim
  | text s => exact ⟨'"', _, rfl, rfl, by decide⟩
  | garbled => exact h.elim
  | list items => cases items <;> exact ⟨'[', _, rfl, rfl, by decide⟩
  | record fields => cases fields <;> exact ⟨'\x7b', _, rfl, rfl, by decide⟩

lemma closes_writeItems (ds : List Data) (rest : List Char) : Closes (writeItems ds ++ rest) := by
  cases ds <;> simp [Closes, writeItems]

lemma closes_writeFields (fs : List (Option String × Data)) (rest : List Char) : Closes (writeFields fs ++ rest) := by
  cases fs <;> simp [Closes, writeFields]

/-- With so much fuel, what is written on twice as few characters is read back. -/
structure ReadsWritten (fuel : Nat) : Prop where
  value : ∀ d rest, Exact d → Closes rest → 2 * (write d).length ≤ fuel →
    value? fuel (write d ++ rest) = some (d, rest)
  items : ∀ d ds rest, ExactItems (d :: ds) → 2 * (write d ++ writeItems ds).length ≤ fuel →
    items? fuel (write d ++ (writeItems ds ++ rest)) = some (d :: ds, rest)
  fields : ∀ name d fs rest, ExactFields ((some name, d) :: fs) → 2 * (write d ++ writeFields fs).length ≤ fuel →
    fields? fuel (quote name ++ ':' :: (write d ++ (writeFields fs ++ rest))) = some ((some name, d) :: fs, rest)

section Step
variable {fuel : Nat} {rest : List Char}

lemma value?_succ (ih : ReadsWritten fuel) {d : Data} (h : Exact d) (closes : Closes rest)
    (enough : 2 * (write d).length ≤ fuel + 1) : value? (fuel + 1) (write d ++ rest) = some (d, rest) := by
  cases d with
  | null => rfl
  | bool value => cases value <;> rfl
  | int n =>
    obtain ⟨c, cs, split, first⟩ := exists_decimal_eq_cons n
    have read := number?_decimal h closes
    rw [split, List.cons_append, ← scalar?_eq_number? first] at read
    rw [write, split, List.cons_append, value?, skipSpace_cons (isSpace_of_number first)]
    split
    next same => exact absurd (List.cons.inj same).1 (ne_of_number first '[' (by decide))
    next same => exact absurd (List.cons.inj same).1 (ne_of_number first '\x7b' (by decide))
    next => exact read
  | real written => exact h.elim
  | text s => exact scalar?_quote s rest
  | garbled => exact h.elim
  | list items =>
    cases items with
    | nil => rfl
    | cons d ds =>
      obtain ⟨c, cs, split, solid, inner⟩ := exists_write_eq_cons h.1
      have read := ih.items d ds rest h (by simp [write] at enough ⊢; omega)
      have opened : isSpace '[' = false := rfl
      rw [split, List.cons_append] at read
      rw [write, split, List.cons_append, List.cons_append, List.append_assoc, List.cons_append, value?,
        skipSpace_cons opened]
      simp only [skipSpace_cons solid]
      split
      next same => exact absurd (List.cons.inj same).1 inner
      next =>
        rw [read]
        rfl
  | record fields =>
    cases fields with
    | nil => rfl
    | cons field fs =>
      obtain ⟨name?, d⟩ := field
      obtain ⟨name, rfl⟩ := Option.isSome_iff_exists.mp h.1
      have read := ih.fields name d fs rest h (by simp [write] at enough ⊢; omega)
      have opened : isSpace '\x7b' = false := rfl
      have quoted : isSpace '"' = false := rfl
      rw [quote_append] at read
      simp only [write, Option.getD_some, List.cons_append, List.append_assoc, quote_append, value?,
        skipSpace_cons opened, skipSpace_cons quoted, read, Option.map_some]
      rfl

lemma items?_succ (ih : ReadsWritten fuel) {d : Data} {ds : List Data} (h : ExactItems (d :: ds))
    (enough : 2 * (write d ++ writeItems ds).length ≤ fuel + 1) :
    items? (fuel + 1) (write d ++ (writeItems ds ++ rest)) = some (d :: ds, rest) := by
  have longer : 0 < (writeItems ds).length := by cases ds <;> simp [writeItems]
  rw [List.length_append] at enough
  rw [items?, ih.value d _ h.1 (closes_writeItems ds rest) (by omega)]
  cases ds with
  | nil => rfl
  | cons next ds =>
    have read := ih.items next ds rest h.2 (by simp [writeItems] at enough ⊢; omega)
    have comma : isSpace ',' = false := rfl
    simp only [writeItems, List.cons_append, List.append_assoc, Option.bind_some, skipSpace_cons comma, read,
      Option.map_some]

lemma fields?_succ (ih : ReadsWritten fuel) {name : String} {d : Data} {fs : List (Option String × Data)}
    (h : ExactFields ((some name, d) :: fs)) (enough : 2 * (write d ++ writeFields fs).length ≤ fuel + 1) :
    fields? (fuel + 1) (quote name ++ ':' :: (write d ++ (writeFields fs ++ rest))) =
      some ((some name, d) :: fs, rest) := by
  have longer : 0 < (writeFields fs).length := by cases fs <;> simp [writeFields]
  rw [List.length_append] at enough
  have first := ih.value d _ h.2.1 (closes_writeFields fs rest) (by omega)
  rw [fields?, name?_quote]
  simp only [Option.bind_some, first]
  cases fs with
  | nil => rfl
  | cons field fs =>
    obtain ⟨next?, d'⟩ := field
    obtain ⟨next, rfl⟩ := Option.isSome_iff_exists.mp h.2.2.1
    have read := ih.fields next d' fs rest h.2.2 (by simp [writeFields] at enough ⊢; omega)
    have comma : isSpace ',' = false := rfl
    simp only [writeFields, Option.getD_some, List.cons_append, List.append_assoc, skipSpace_cons comma, read,
      Option.map_some]

end Step

/-- The readers call each other as the writers do. The fuel goes down with each call, and the text with every
second one at the latest. -/
lemma readsWritten (fuel : Nat) : ReadsWritten fuel := by
  induction fuel with
  | zero =>
    have nonempty : ∀ d, Exact d → 0 < (write d).length := by
      intro d h
      obtain ⟨c, cs, split, -⟩ := exists_write_eq_cons h
      simp [split]
    refine ⟨?_, ?_, ?_⟩
    · intro d rest h _ none
      have := nonempty d h
      omega
    · intro d ds rest h none
      have := nonempty d h.1
      rw [List.length_append] at none
      omega
    · intro name d fs rest h none
      have := nonempty d h.2.1
      rw [List.length_append] at none
      omega
  | succ fuel ih =>
    refine ⟨?_, ?_, ?_⟩
    · intro d rest h closes enough
      exact value?_succ ih h closes enough
    · intro d ds rest h enough
      exact items?_succ ih h enough
    · intro name d fs rest h enough
      exact fields?_succ ih h enough

/-- Data that JSON tells apart is read back from its JSON. -/
theorem read?_compact {d : Data} (h : Exact d) : read? (compact d) = some d := by
  have read := (readsWritten (2 * (write d).length + 2)).value d [] h (by simp [Closes]) (by omega)
  rw [List.append_nil] at read
  rw [read?, compact]
  simp only [String.toList_ofList, read, Option.bind_some]
  rfl

end Values
end Keyfile.Json
