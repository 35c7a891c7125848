import Keyfile.Text.Integer

/-! Floating point literals: which texts are one, and whether double precision holds the value. -/
namespace Keyfile.Text

/-- Size of what a floating point literal denotes; the sign does not matter here. -/
inductive Magnitude where
  | infinite
  | notANumber
  /-- `digits` times ten to the power `exponent`. -/
  | decimal (digits : Nat) (exponent : Int)
  deriving DecidableEq, Repr

/-- The text after one leading sign, if it has one. -/
def unsigned : List Char → List Char
  | '+' :: cs => cs
  | '-' :: cs => cs
  | cs => cs

/-- The exponent that ends a literal: nothing, or `e` with a signed number. -/
def exponent? : List Char → Option Int
  | [] => some 0
  | c :: cs =>
    if c = 'e' ∨ c = 'E' then
      (natural? (unsigned cs)).map fun n => if cs.head? = some '-' then -n else n
    else none

/-- Digits with at most one point among them, at least one digit in all, and an optional exponent. -/
def decimal? (cs : List Char) : Option Magnitude :=
  let whole := cs.takeWhile Char.isDigit
  let rest := cs.dropWhile Char.isDigit
  let fraction := match rest with | '.' :: cs => cs.takeWhile Char.isDigit | _ => []
  let rest := match rest with | '.' :: cs => cs.dropWhile Char.isDigit | _ => rest
  if whole.isEmpty && fraction.isEmpty then none
  else (exponent? rest).map fun e => .decimal (digitsValue (whole ++ fraction)) (e - fraction.length)

/-- A floating point literal: one sign at most, then `inf`, `infinity` or `nan` in any case of
letters, or a decimal number. -/
def magnitude? (cs : List Char) : Option Magnitude :=
  let body := unsigned cs
  let name := body.map Char.toLower
  if name = "inf".toList ∨ name = "infinity".toList then some .infinite
  else if name = "nan".toList then some .notANumber
  else decimal? body

/-- The least number that rounds to infinity in double precision, half a unit past the largest finite
one. -/
def overflowBound : Nat := Nat.pow 2 1024 - Nat.pow 2 970

/-- Whether a decimal number rounds to infinity. The number of digits before the point decides except
close to the bound, so that no huge power is ever computed. -/
def overflows (digits : Nat) (exponent : Int) : Bool :=
  if digits = 0 then false
  else
    let places := (Nat.toDigits 10 digits).length + exponent
    if places > 310 then true
    else if places < 309 then false
    else if 0 ≤ exponent then overflowBound ≤ digits * Nat.pow 10 exponent.toNat
    else overflowBound * Nat.pow 10 (-exponent).toNat ≤ digits

def Magnitude.isFinite : Magnitude → Bool
  | .infinite => false
  | .notANumber => false
  | .decimal digits exponent => !overflows digits exponent

def Magnitude.isInfinite : Magnitude → Bool
  | .infinite => true
  | .notANumber => false
  | .decimal digits exponent => overflows digits exponent

end Keyfile.Text
