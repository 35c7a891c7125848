import Keyfile.Text.Unprintable

/-! Texts in double quotes, with escapes for all that could not be seen. -/
namespace Keyfile.Text

/-- A character inside quotes. -/
def escaped (c : Char) : List Char :=
  match c with
  | '\x00' => ['\\', '0']
  | '\t' => ['\\', 't']
  | '\r' => ['\\', 'r']
  | '\n' => ['\\', 'n']
  | '"' => ['\\', '"']
  | '\\' => ['\\', '\\']
  | c =>
    if isUnprintable c then ['\\', 'u', '\x7b'] ++ Nat.toDigits 16 c.toNat ++ ['\x7d'] else [c]

end Keyfile.Text

namespace Keyfile

/-- A text in quotes. -/
def quoted (s : String) : String := String.ofList ('"' :: s.toList.flatMap Text.escaped ++ ['"'])

end Keyfile
