import Keyfile.Data.Basic
import Keyfile.Text.Integer

/-! Data written as JSON, on one line or indented. -/
namespace Keyfile.Json

/-- Two hexadecimal digits. -/
def hexPair (n : Nat) : List Char := [Nat.digitChar (n / 16), Nat.digitChar (n % 16)]

/-- A character inside a string literal: quotes, backslashes and control characters are escaped. -/
def escapeChar (c : Char) : List Char :=
  if c = '"' then ['\\', '"']
  else if c = '\\' then ['\\', '\\']
  else if c = '\n' then ['\\', 'n']
  else if c = '\r' then ['\\', 'r']
  else if c = '\t' then ['\\', 't']
  else if c = '\x08' then ['\\', 'b']
  else if c = '\x0c' then ['\\', 'f']
  else if c.toNat < 0x20 then ['\\', 'u', '0', '0'] ++ hexPair c.toNat
  else [c]

def quote (s : String) : List Char := '"' :: s.toList.flatMap escapeChar ++ ['"']

mutual
/-- Data on one line, without blanks. -/
def write : Data → List Char
  | .null => "null".toList
  | .bool true => "true".toList
  | .bool false => "false".toList
  | .int n => Text.decimal n
  | .real written => written.toList
  | .text s => quote s
  | .garbled => quote ""
  | .list [] => "[]".toList
  | .list (d :: ds) => '[' :: write d ++ writeItems ds
  | .record [] => "\x7b\x7d".toList
  | .record ((name, d) :: fs) => '\x7b' :: quote (name.getD "") ++ ':' :: write d ++ writeFields fs
/-- Further items, up to the closing bracket. -/
def writeItems : List Data → List Char
  | [] => [']']
  | d :: ds => ',' :: write d ++ writeItems ds
/-- Further fields, up to the closing brace. -/
def writeFields : List (Option String × Data) → List Char
  | [] => ['\x7d']
  | (name, d) :: fs => ',' :: quote (name.getD "") ++ ':' :: write d ++ writeFields fs
end

/-- A new line at a depth of nesting, two spaces for each level. -/
def newLine (depth : Nat) : List Char := '\n' :: List.replicate (2 * depth) ' '

mutual
/-- Data with every item and field on a line of its own. -/
def writeIndented (depth : Nat) : Data → List Char
  | .null => "null".toList
  | .bool true => "true".toList
  | .bool false => "false".toList
  | .int n => Text.decimal n
  | .real written => written.toList
  | .text s => quote s
  | .garbled => quote ""
  | .list [] => "[]".toList
  | .list (d :: ds) =>
    '[' :: newLine (depth + 1) ++ writeIndented (depth + 1) d ++ writeItemsIndented depth ds
  | .record [] => "\x7b\x7d".toList
  | .record ((name, d) :: fs) =>
    '\x7b' :: newLine (depth + 1) ++ quote (name.getD "") ++ ':' :: ' ' ::
      writeIndented (depth + 1) d ++ writeFieldsIndented depth fs
def writeItemsIndented (depth : Nat) : List Data → List Char
  | [] => newLine depth ++ [']']
  | d :: ds =>
    ',' :: newLine (depth + 1) ++ writeIndented (depth + 1) d ++ writeItemsIndented depth ds
def writeFieldsIndented (depth : Nat) : List (Option String × Data) → List Char
  | [] => newLine depth ++ ['\x7d']
  | (name, d) :: fs =>
    ',' :: newLine (depth + 1) ++ quote (name.getD "") ++ ':' :: ' ' ::
      writeIndented (depth + 1) d ++ writeFieldsIndented depth fs
end

def compact (d : Data) : String := String.ofList (write d)

def pretty (d : Data) : String := String.ofList (writeIndented 0 d)

end Keyfile.Json
