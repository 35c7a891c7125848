import Keyfile.Data.Toml.Scalar
import Keyfile.Data.Toml.Table

/-! TOML documents read as data. -/
namespace Keyfile.Toml

/-- Characters of a key without quotes. -/
def isBareChar (c : Char) : Bool := c.isAlphanum || c == '_' || c == '-'

/-- One part of a dotted key, and the text after it. -/
def keyPart? (cs : List Char) : Option (String × List Char) :=
  match cs with
  | '"' :: cs => (basic? (cs.length + 1) cs).map fun (content, rest) => (String.ofList content, rest)
  | '\'' :: cs => (literal? cs).map fun (content, rest) => (String.ofList content, rest)
  | _ =>
    let bare := cs.takeWhile isBareChar
    if bare.isEmpty then none else some (String.ofList bare, cs.dropWhile isBareChar)

/-- A dotted key: the parts before the last, the last part, and the text after blanks. -/
def key? : Nat → List Char → Option (List String × String × List Char)
  | 0, _ => none
  | fuel + 1, cs =>
    (keyPart? (skipBlanks cs)).bind fun (part, rest) =>
      match skipBlanks rest with
      | '.' :: rest => (key? fuel rest).map fun (path, last, rest) => (part :: path, last, rest)
      | rest => some ([], part, rest)

/-- The text from the next character that is neither blank, line break nor part of a comment.
The flag tells whether a comment is open. -/
def skipVoid? : Bool → List Char → Option (List Char)
  | _, [] => some []
  | _, '\n' :: cs => skipVoid? false cs
  | _, '\r' :: '\n' :: cs => skipVoid? false cs
  | true, c :: cs => if isPlain c then skipVoid? true cs else none
  | false, c :: cs =>
    if isBlank c then skipVoid? false cs
    else if c = '#' then skipVoid? true cs
    else some (c :: cs)

/-- What follows a line break, or the end of the text. -/
def lineEnd? : List Char → Option (List Char)
  | [] => some []
  | '\n' :: cs => some cs
  | '\r' :: '\n' :: cs => some cs
  | _ => none

/-- What follows the rest of a line that holds nothing but a comment. -/
def restOfLine? (cs : List Char) : Option (List Char) :=
  match skipBlanks cs with
  | '#' :: cs => lineEnd? (cs.dropWhile isPlain)
  | cs => lineEnd? cs

mutual
/-- A value nested no deeper than so many levels, and the text after it. The fuel bounds how often the
three readers call each other. -/
def value? : Nat → Nat → List Char → Option (Data × List Char)
  | 0, _, _ => none
  | fuel + 1, levels, cs =>
    match cs with
    | '[' :: cs =>
      match levels with
      | 0 => none
      | levels + 1 => (items? fuel levels cs).map fun (items, rest) => (.list items, rest)
    | '\x7b' :: cs =>
      match levels with
      | 0 => none
      | levels + 1 =>
        (fields? fuel levels [] cs).map fun (entries, rest) => (.record (Item.fieldsOf entries), rest)
    | '"' :: _ => (string? cs).map fun (content, rest) => (.text (String.ofList content), rest)
    | '\'' :: _ => (string? cs).map fun (content, rest) => (.text (String.ofList content), rest)
    | cs => (atomData? (atom cs).1).map (·, (atom cs).2)
/-- Items up to the closing bracket; a comma may follow the last. -/
def items? : Nat → Nat → List Char → Option (List Data × List Char)
  | 0, _, _ => none
  | fuel + 1, levels, cs =>
    (skipVoid? false cs).bind fun cs =>
      match cs with
      | ']' :: rest => some ([], rest)
      | cs =>
        (value? fuel levels cs).bind fun (item, rest) =>
          (skipVoid? false rest).bind fun rest =>
            match rest with
            | ']' :: rest => some ([item], rest)
            | ',' :: rest => (items? fuel levels rest).map fun (items, rest) => (item :: items, rest)
            | _ => none
/-- Fields up to the closing brace, added to those before; a comma may follow the last. -/
def fields? : Nat → Nat → Entries → List Char → Option (Entries × List Char)
  | 0, _, _, _ => none
  | fuel + 1, levels, entries, cs =>
    (skipVoid? false cs).bind fun cs =>
      match cs with
      | '\x7d' :: rest => some (entries, rest)
      | cs =>
        (key? (cs.length + 1) cs).bind fun (path, key, rest) =>
          (expect? '=' rest).bind fun rest =>
            (value? fuel levels (skipBlanks rest)).bind fun (d, rest) =>
              (assign path key d false entries).bind fun entries =>
                (skipVoid? false rest).bind fun rest =>
                  match rest with
                  | '\x7d' :: rest => some (entries, rest)
                  | ',' :: rest => fields? fuel levels entries rest
                  | _ => none
end

/-- How deep lists and tables inside values may nest. -/
def maxNesting : Nat := 80

/-- Applies a change to the table that the last header opened. -/
def changeCurrent (header : List String) (change : Change) (entries : Entries) : Option Entries :=
  changeAt false change header false entries

/-- A header after its opening bracket: the path and name of the table, and the next line. -/
def header? (close : List Char) (cs : List Char) : Option (List String × String × List Char) :=
  (key? (cs.length + 1) cs).bind fun (path, key, rest) =>
    (Text.after? close rest).bind fun rest =>
      (restOfLine? rest).map fun rest => (path, key, rest)

/-- Reads statement after statement: the tables so far, the path of the current one, and the text that
is left. The fuel bounds the number of lines. -/
def statements? : Nat → Entries → List String → List Char → Option Entries
  | 0, _, _, _ => none
  | fuel + 1, entries, current, cs =>
    match skipBlanks cs with
    | [] => some entries
    | '\n' :: cs => statements? fuel entries current cs
    | '\r' :: '\n' :: cs => statements? fuel entries current cs
    | '#' :: cs => (restOfLine? ('#' :: cs)).bind (statements? fuel entries current)
    | '[' :: '[' :: cs =>
      (header? [']', ']'] cs).bind fun (path, key, rest) =>
        (openNext path key false entries).bind fun entries =>
          statements? fuel entries (path ++ [key]) rest
    | '[' :: cs =>
      (header? [']'] cs).bind fun (path, key, rest) =>
        (openTable path key false entries).bind fun entries =>
          statements? fuel entries (path ++ [key]) rest
    | cs =>
      (key? (cs.length + 1) cs).bind fun (path, key, rest) =>
        (expect? '=' rest).bind fun rest =>
          (value? (2 * rest.length + 2) maxNesting (skipBlanks rest)).bind fun (d, rest) =>
            (restOfLine? rest).bind fun rest =>
              (changeCurrent current (assign path key d) entries).bind fun entries =>
                statements? fuel entries current rest

/-- The data of a TOML text, which may start with a byte order mark. -/
def read? (text : String) : Option Data :=
  let cs := match text.toList with
    | '\ufeff' :: cs => cs
    | cs => cs
  (statements? (cs.length + 1) [] [] cs).map fun entries => .record (Item.fieldsOf entries)

end Keyfile.Toml
