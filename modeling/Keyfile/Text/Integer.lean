/-! Decimal integers of 64 bits, read from texts and written to them. -/
namespace Keyfile.Text

/-- Value of a run of decimal digits. -/
def digitsValue (cs : List Char) : Nat := cs.foldl (fun n c => 10 * n + (c.toNat - '0'.toNat)) 0

/-- A number written with one or more decimal digits and nothing else. -/
def natural? (cs : List Char) : Option Nat :=
  if cs.isEmpty || !cs.all Char.isDigit then none else some (digitsValue cs)

def minInt64 : Int := -0x8000000000000000
def maxInt64 : Int := 0x7FFFFFFFFFFFFFFF

/-- The integer itself when 64 bits hold it. -/
def asInt64 (n : Int) : Option Int := if minInt64 ≤ n ∧ n ≤ maxInt64 then some n else none

/-- Digits after at most one sign, within 64 bits. -/
def int64? : List Char → Option Int
  | '+' :: cs => (natural? cs).bind fun n => asInt64 n
  | '-' :: cs => (natural? cs).bind fun n => asInt64 (-n)
  | cs => (natural? cs).bind fun n => asInt64 n

/-- Digits after at most one plus sign, within 64 bits without sign. -/
def word64? (cs : List Char) : Option Nat :=
  (natural? (match cs with | '+' :: rest => rest | _ => cs)).bind fun n =>
    if n < 0x10000000000000000 then some n else none

/-- Decimal digits of an integer, after a minus sign when it is negative. -/
def decimal : Int → List Char
  | .ofNat n => Nat.toDigits 10 n
  | .negSucc n => '-' :: Nat.toDigits 10 (n + 1)

end Keyfile.Text

namespace Keyfile

/-- `Text.decimal` as a string. -/
def decimalString (n : Int) : String := String.ofList (Text.decimal n)

end Keyfile
