import Keyfile.Data.Basic
import Keyfile.Data.Json.Reader
import Keyfile.Data.Toml.Moment
import Keyfile.Text.Floating

/-! Strings, numbers and other plain values of TOML. -/
namespace Keyfile.Toml

def isBlank (c : Char) : Bool := c == ' ' || c == '\t'

def skipBlanks (cs : List Char) : List Char := cs.dropWhile isBlank

/-- Characters that may stand in a comment and, quotes and backslashes apart, in a string. -/
def isPlain (c : Char) : Bool := c == '\t' || (0x20 ≤ c.toNat && c.toNat ≠ 0x7F)

/-- The character with a code, unless the code is a surrogate or too large. -/
def charOfCode? (code : Nat) : Option Char := if code.isValidChar then some (Char.ofNat code) else none

/-- The character that an escape stands for, and the text after it. -/
def escape? : List Char → Option (Char × List Char)
  | 'b' :: cs => some ('\x08', cs)
  | 't' :: cs => some ('\t', cs)
  | 'n' :: cs => some ('\n', cs)
  | 'f' :: cs => some ('\x0c', cs)
  | 'r' :: cs => some ('\r', cs)
  | 'e' :: cs => some ('\x1b', cs)
  | '"' :: cs => some ('"', cs)
  | '\\' :: cs => some ('\\', cs)
  | 'x' :: cs => coded 2 cs
  | 'u' :: cs => coded 4 cs
  | 'U' :: cs => coded 8 cs
  | _ => none
where
  /-- A character given by a number of hexadecimal digits. -/
  coded (digits : Nat) (cs : List Char) : Option (Char × List Char) :=
    if cs.length < digits then none
    else ((Json.hex? (cs.take digits)).bind charOfCode?).map (·, cs.drop digits)

/-- The content of a string in double quotes after the opening one, and the text after the string.
The fuel bounds the number of characters. -/
def basic? : Nat → List Char → Option (List Char × List Char)
  | 0, _ => none
  | fuel + 1, cs =>
    match cs with
    | [] => none
    | '"' :: cs => some ([], cs)
    | '\\' :: cs =>
      (escape? cs).bind fun (c, cs) => (basic? fuel cs).map fun (content, rest) => (c :: content, rest)
    | c :: cs =>
      if isPlain c then (basic? fuel cs).map fun (content, rest) => (c :: content, rest) else none

/-- The content of a string in single quotes after the opening one, and the text after the string. -/
def literal? : List Char → Option (List Char × List Char)
  | [] => none
  | '\'' :: cs => some ([], cs)
  | c :: cs =>
    if isPlain c then (literal? cs).map fun (content, rest) => (c :: content, rest) else none

/-- The text after the line break right behind the opening of a string of several lines. -/
def dropFirstBreak : List Char → List Char
  | '\n' :: cs => cs
  | '\r' :: '\n' :: cs => cs
  | cs => cs

/-- The quotes at the end of a string of several lines: three close it, and up to two before them
belong to its content. -/
def closing? (quote : Char) (cs : List Char) : Option (List Char × List Char) :=
  let quotes := (cs.takeWhile (· == quote)).length
  if quotes < 3 then none
  else
    let kept := min (quotes - 3) 2
    some (List.replicate kept quote, cs.drop (kept + 3))

/-- Whether a backslash here hides the rest of its line. -/
def endsLine (cs : List Char) : Bool :=
  match skipBlanks cs with
  | '\n' :: _ => true
  | '\r' :: '\n' :: _ => true
  | _ => false

/-- The text without leading blanks and line breaks. -/
def skipLines : List Char → List Char
  | ' ' :: cs => skipLines cs
  | '\t' :: cs => skipLines cs
  | '\n' :: cs => skipLines cs
  | '\r' :: '\n' :: cs => skipLines cs
  | cs => cs

/-- The content of a string of several lines in double quotes. -/
def basicLines? : Nat → List Char → Option (List Char × List Char)
  | 0, _ => none
  | fuel + 1, cs =>
    match closing? '"' cs with
    | some found => some found
    | none =>
      match cs with
      | [] => none
      | '\\' :: cs =>
        if endsLine cs then basicLines? fuel (skipLines cs)
        else
          (escape? cs).bind fun (c, cs) =>
            (basicLines? fuel cs).map fun (content, rest) => (c :: content, rest)
      | '\r' :: '\n' :: cs =>
        (basicLines? fuel cs).map fun (content, rest) => ('\r' :: '\n' :: content, rest)
      | c :: cs =>
        if isPlain c || c == '\n' then
          (basicLines? fuel cs).map fun (content, rest) => (c :: content, rest)
        else none

/-- The content of a string of several lines in single quotes. -/
def literalLines? : Nat → List Char → Option (List Char × List Char)
  | 0, _ => none
  | fuel + 1, cs =>
    match closing? '\'' cs with
    | some found => some found
    | none =>
      match cs with
      | [] => none
      | '\r' :: '\n' :: cs =>
        (literalLines? fuel cs).map fun (content, rest) => ('\r' :: '\n' :: content, rest)
      | c :: cs =>
        if isPlain c || c == '\n' then
          (literalLines? fuel cs).map fun (content, rest) => (c :: content, rest)
        else none

/-- A string of any of the four kinds, and the text after it. -/
def string? : List Char → Option (List Char × List Char)
  | '"' :: '"' :: '"' :: cs => basicLines? (cs.length + 1) (dropFirstBreak cs)
  | '\'' :: '\'' :: '\'' :: cs => literalLines? (cs.length + 1) (dropFirstBreak cs)
  | '"' :: cs => basic? (cs.length + 1) cs
  | '\'' :: cs => literal? cs
  | _ => none

/-- Digits in groups: single underscores may stand between two of them. -/
def grouped? (isDigit : Char → Bool) : List Char → Option (List Char)
  | [] => none
  | [c] => if isDigit c then some [c] else none
  | c :: '_' :: cs => if isDigit c then (grouped? isDigit cs).map (c :: ·) else none
  | c :: cs => if isDigit c then (grouped? isDigit cs).map (c :: ·) else none

/-- Digits in groups without a zero before others. -/
def whole? (cs : List Char) : Option (List Char) :=
  (grouped? Char.isDigit cs).filter fun digits => digits.length == 1 || digits.head? != some '0'

/-- Value of digits in a base. -/
def valueIn (base : Nat) (digits : List Char) : Nat :=
  digits.foldl (fun n c => base * n + (Json.hexDigit? c).getD 0) 0

/-- An integer as data. Integers of more than 128 bits are refused. -/
def integerData (n : Int) : Option Data :=
  if -0x8000000000000000 ≤ n ∧ n < 0x10000000000000000 then some (.int n)
  else if -0x80000000000000000000000000000000 ≤ n ∧ n < 0x100000000000000000000000000000000 then
    some (.real (decimalString n))
  else none
where
  decimalString (n : Int) : String := String.ofList (Text.decimal n)

/-- An integer in decimal digits or, after a mark, in another base. -/
def integer? (cs : List Char) : Option Data :=
  match cs with
  | '0' :: 'x' :: cs =>
    ((grouped? (fun c => (Json.hexDigit? c).isSome) cs).map (valueIn 16 ·)).bind fun n => integerData n
  | '0' :: 'o' :: cs =>
    ((grouped? (fun c => '0' ≤ c && c ≤ '7') cs).map (valueIn 8 ·)).bind fun n => integerData n
  | '0' :: 'b' :: cs =>
    ((grouped? (fun c => c == '0' || c == '1') cs).map (valueIn 2 ·)).bind fun n => integerData n
  | _ =>
    (whole? (Text.unsigned cs)).bind fun digits =>
      integerData (if cs.head? == some '-' then -Text.digitsValue digits else Text.digitsValue digits)

def isExponentMark (c : Char) : Bool := c == 'e' || c == 'E'

/-- The exponent at the end of a floating point number; none is zero. -/
def floatExponent? : List Char → Option Int
  | [] => some 0
  | c :: cs =>
    if isExponentMark c then
      (grouped? Char.isDigit (Text.unsigned cs)).map fun digits =>
        if cs.head? == some '-' then -Text.digitsValue digits else Text.digitsValue digits
    else none

/-- A floating point number, unless it is too large for double precision. -/
def float? (cs : List Char) : Option Data :=
  let body := Text.unsigned cs
  if body = "inf".toList ∨ body = "nan".toList then some (.real (String.ofList cs))
  else
    let front := body.takeWhile fun c => c != '.' && !isExponentMark c
    let back := body.dropWhile fun c => c != '.' && !isExponentMark c
    let fraction := match back with
      | '.' :: back => grouped? Char.isDigit (back.takeWhile fun c => !isExponentMark c)
      | _ => some []
    let rest := match back with
      | '.' :: back => back.dropWhile fun c => !isExponentMark c
      | _ => back
    if back.isEmpty then none
    else
      (whole? front).bind fun front =>
        fraction.bind fun fraction =>
          (floatExponent? rest).bind fun e =>
            if Text.overflows (Text.digitsValue (front ++ fraction)) (e - fraction.length) then none
            else some (.real (String.ofList cs))

/-- Characters that numbers, dates and the names of truth values consist of. -/
def isAtomChar (c : Char) : Bool :=
  c.isAlphanum || c == '_' || c == '+' || c == '-' || c == '.' || c == ':'

/-- The text of a plain value: a blank may stand between a date and a time. -/
def atom (cs : List Char) : List Char × List Char :=
  let first := cs.takeWhile isAtomChar
  let rest := cs.dropWhile isAtomChar
  match rest with
  | ' ' :: a :: more =>
    if afterDate? first == some [] && a.isDigit then
      (first ++ ' ' :: (a :: more).takeWhile isAtomChar, (a :: more).dropWhile isAtomChar)
    else (first, rest)
  | _ => (first, rest)

/-- A date or time stands for a record with one field of its own. -/
def momentData (cs : List Char) : Data := .object [("moment", .text (String.ofList cs))]

/-- A number, a truth value, or a date. -/
def atomData? (cs : List Char) : Option Data :=
  if cs = "true".toList then some (.bool true)
  else if cs = "false".toList then some (.bool false)
  else if isMoment cs then some (momentData cs)
  else (integer? cs).or (float? cs)

end Keyfile.Toml
