import Keyfile.Data.Basic
import Keyfile.Text.Integer
import Keyfile.Text.Pieces

/-! JSON read strictly: one value, blanks around it, and nothing else. -/
namespace Keyfile.Json

def isSpace (c : Char) : Bool := c == ' ' || c == '\n' || c == '\t' || c == '\r'

def skipSpace (cs : List Char) : List Char := cs.dropWhile isSpace

/-- Value of a hexadecimal digit. -/
def hexDigit? (c : Char) : Option Nat :=
  if '0' ≤ c ∧ c ≤ '9' then some (c.toNat - '0'.toNat)
  else if 'a' ≤ c ∧ c ≤ 'f' then some (c.toNat - 'a'.toNat + 10)
  else if 'A' ≤ c ∧ c ≤ 'F' then some (c.toNat - 'A'.toNat + 10)
  else none

/-- Value of a run of hexadecimal digits. -/
def hex? (cs : List Char) : Option Nat :=
  cs.foldl (fun n c => n.bind fun n => (hexDigit? c).map (16 * n + ·)) (some 0)

/-- A part of a string literal: a character, or the code unit that an escape gives. -/
inductive Part where
  | char (c : Char)
  | unit (code : Nat)
  deriving DecidableEq, Repr

/-- The character that a short escape stands for. -/
def shortEscape? : Char → Option Char
  | '"' => some '"'
  | '\\' => some '\\'
  | '/' => some '/'
  | 'b' => some '\x08'
  | 'f' => some '\x0c'
  | 'n' => some '\n'
  | 'r' => some '\r'
  | 't' => some '\t'
  | _ => none

/-- The parts of a string literal after its opening quote, and what follows the closing one. -/
def parts? : List Char → Option (List Part × List Char)
  | [] => none
  | '"' :: cs => some ([], cs)
  | '\\' :: 'u' :: a :: b :: c :: d :: cs =>
    (hex? [a, b, c, d]).bind fun code =>
      (parts? cs).map fun (parts, rest) => (.unit code :: parts, rest)
  | '\\' :: e :: cs =>
    (shortEscape? e).bind fun c => (parts? cs).map fun (parts, rest) => (.char c :: parts, rest)
  | c :: cs =>
    if c.toNat < 0x20 then none
    else (parts? cs).map fun (parts, rest) => (.char c :: parts, rest)

def isLead (code : Nat) : Bool := 0xD800 ≤ code && code ≤ 0xDBFF
def isTrail (code : Nat) : Bool := 0xDC00 ≤ code && code ≤ 0xDFFF

/-- The text of a string literal; there is none when a surrogate stands alone. -/
def assemble? : List Part → Option (List Char)
  | [] => some []
  | .char c :: ps => (assemble? ps).map (c :: ·)
  | .unit lead :: .unit trail :: ps =>
    if isLead lead then
      if isTrail trail then
        (assemble? ps).map (Char.ofNat ((lead - 0xD800) * 0x400 + (trail - 0xDC00) + 0x10000) :: ·)
      else none
    else if isTrail lead then none
    else (assemble? (.unit trail :: ps)).map (Char.ofNat lead :: ·)
  | .unit code :: ps =>
    if isLead code || isTrail code then none else (assemble? ps).map (Char.ofNat code :: ·)

/-- The text of a string literal after its opening quote, and what follows the literal. -/
def string? (cs : List Char) : Option (Option String × List Char) :=
  (parts? cs).map fun (parts, rest) => ((assemble? parts).map String.ofList, rest)

/-- The digits of a whole number: no zero stands before other digits. -/
def wholeDigits? : List Char → Option (List Char × List Char)
  | '0' :: cs => some (['0'], cs)
  | cs =>
    let digits := cs.takeWhile Char.isDigit
    if digits.isEmpty then none else some (digits, cs.dropWhile Char.isDigit)

/-- A point with digits after it, if there is a point. -/
def fraction? : List Char → Option (List Char × List Char)
  | '.' :: cs =>
    let digits := cs.takeWhile Char.isDigit
    if digits.isEmpty then none else some ('.' :: digits, cs.dropWhile Char.isDigit)
  | cs => some ([], cs)

/-- The sign that an exponent may start with. -/
def sign : List Char → List Char × List Char
  | '+' :: cs => (['+'], cs)
  | '-' :: cs => (['-'], cs)
  | cs => ([], cs)

/-- An exponent, if there is one. -/
def exponent? : List Char → Option (List Char × List Char)
  | c :: cs =>
    if c = 'e' ∨ c = 'E' then
      let (mark, cs) := sign cs
      let digits := cs.takeWhile Char.isDigit
      if digits.isEmpty then none else some (c :: mark ++ digits, cs.dropWhile Char.isDigit)
    else some ([], c :: cs)
  | [] => some ([], [])

/-- A number as data. Zero with a minus sign is not an integer. -/
def numberData (negative : Bool) (whole fraction exponent : List Char) : Data :=
  let value : Int := if negative then -Text.digitsValue whole else Text.digitsValue whole
  let isInteger := fraction.isEmpty && exponent.isEmpty && !(negative && value == 0) &&
    decide (-0x8000000000000000 ≤ value) && decide (value < 0x10000000000000000)
  if isInteger then .int value
  else .real (String.ofList ((if negative then ['-'] else []) ++ whole ++ fraction ++ exponent))

def number? (cs : List Char) : Option (Data × List Char) :=
  let negative := cs.head? == some '-'
  let cs := if negative then cs.tail else cs
  (wholeDigits? cs).bind fun (whole, cs) =>
    (fraction? cs).bind fun (fraction, cs) =>
      (exponent? cs).map fun (exponent, cs) => (numberData negative whole fraction exponent, cs)

/-- A value that is neither a list nor a record. -/
def scalar? (cs : List Char) : Option (Data × List Char) :=
  match cs with
  | '"' :: cs =>
    (string? cs).map fun (content, rest) => ((content.map Data.text).getD .garbled, rest)
  | _ =>
    if let some rest := Text.after? "null".toList cs then some (.null, rest)
    else if let some rest := Text.after? "true".toList cs then some (.bool true, rest)
    else if let some rest := Text.after? "false".toList cs then some (.bool false, rest)
    else number? cs

/-- The name of a field and the colon after it. -/
def name? (cs : List Char) : Option (Option String × List Char) :=
  match skipSpace cs with
  | '"' :: cs =>
    (string? cs).bind fun (content, rest) =>
      match skipSpace rest with
      | ':' :: rest => some (content, rest)
      | _ => none
  | _ => none

mutual
/-- A value and what follows it. The fuel bounds how often the three readers call each other. -/
def value? : Nat → List Char → Option (Data × List Char)
  | 0, _ => none
  | fuel + 1, cs =>
    match skipSpace cs with
    | '[' :: cs =>
      match skipSpace cs with
      | ']' :: rest => some (.list [], rest)
      | _ => (items? fuel cs).map fun (items, rest) => (.list items, rest)
    | '\x7b' :: cs =>
      match skipSpace cs with
      | '\x7d' :: rest => some (.record [], rest)
      | _ => (fields? fuel cs).map fun (fields, rest) => (.record fields, rest)
    | cs => scalar? cs
/-- One or more items and the closing bracket. -/
def items? : Nat → List Char → Option (List Data × List Char)
  | 0, _ => none
  | fuel + 1, cs =>
    (value? fuel cs).bind fun (item, rest) =>
      match skipSpace rest with
      | ']' :: rest => some ([item], rest)
      | ',' :: rest => (items? fuel rest).map fun (items, rest) => (item :: items, rest)
      | _ => none
/-- One or more fields and the closing brace. -/
def fields? : Nat → List Char → Option (List (Option String × Data) × List Char)
  | 0, _ => none
  | fuel + 1, cs =>
    (name? cs).bind fun (name, rest) =>
      (value? fuel rest).bind fun (d, rest) =>
        match skipSpace rest with
        | '\x7d' :: rest => some ([(name, d)], rest)
        | ',' :: rest => (fields? fuel rest).map fun (fields, rest) => ((name, d) :: fields, rest)
        | _ => none
end

/-- The data of a JSON text. Between two calls of the readers a character is read, or a list or record
was just opened, so twice the length of the text is fuel enough. -/
def read? (text : String) : Option Data :=
  let cs := text.toList
  (value? (2 * cs.length + 2) cs).bind fun (d, rest) =>
    if (skipSpace rest).isEmpty then some d else none

end Keyfile.Json
