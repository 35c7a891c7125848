/-! Dates and times as TOML writes them. Only whether a text is one matters here. -/
namespace Keyfile.Toml

/-- The value of two digits that a text starts with, and the rest. -/
def twoDigits? : List Char → Option (Nat × List Char)
  | a :: b :: cs =>
    if a.isDigit && b.isDigit then some (10 * (a.toNat - '0'.toNat) + (b.toNat - '0'.toNat), cs) else none
  | _ => none

/-- Two digits within bounds, and the rest. -/
def field? (low high : Nat) (cs : List Char) : Option (Nat × List Char) :=
  (twoDigits? cs).filter fun (n, _) => low ≤ n && n ≤ high

/-- The text after an expected character. -/
def expect? (c : Char) : List Char → Option (List Char)
  | d :: cs => if d = c then some cs else none
  | [] => none

def isLeapYear (year : Nat) : Bool := year % 4 == 0 && (year % 100 != 0 || year % 400 == 0)

def daysInMonth (year month : Nat) : Nat :=
  if month = 2 then if isLeapYear year then 29 else 28
  else if month = 4 ∨ month = 6 ∨ month = 9 ∨ month = 11 then 30
  else 31

/-- What follows a date of the calendar, year first. -/
def afterDate? (cs : List Char) : Option (List Char) := do
  let (century, cs) ← twoDigits? cs
  let (year, cs) ← twoDigits? cs
  let cs ← expect? '-' cs
  let (month, cs) ← field? 1 12 cs
  let cs ← expect? '-' cs
  let (_, cs) ← field? 1 (daysInMonth (100 * century + year) month) cs
  some cs

/-- What follows the fraction of a second, if there is one. -/
def afterFraction? : List Char → Option (List Char)
  | '.' :: cs => if cs.head?.any Char.isDigit then some (cs.dropWhile Char.isDigit) else none
  | cs => some cs

/-- What follows a time of day; its seconds may be left out. -/
def afterTime? (cs : List Char) : Option (List Char) := do
  let (_, cs) ← field? 0 23 cs
  let cs ← expect? ':' cs
  let (_, cs) ← field? 0 59 cs
  match cs with
  | ':' :: cs => do
    let (_, cs) ← field? 0 60 cs
    afterFraction? cs
  | _ => some cs

/-- What follows the distance from universal time, if there is one. -/
def afterZone? : List Char → Option (List Char)
  | [] => some []
  | c :: cs =>
    if c = 'Z' ∨ c = 'z' then some cs
    else if c = '+' ∨ c = '-' then do
      let (_, cs) ← field? 0 23 cs
      let cs ← expect? ':' cs
      let (_, cs) ← field? 0 59 cs
      some cs
    else some (c :: cs)

/-- A date alone, a time alone, or a date and a time with or without a zone. -/
def isMoment (cs : List Char) : Bool :=
  match afterDate? cs with
  | some [] => true
  | some (c :: cs) =>
    (c == 'T' || c == 't' || c == ' ') && ((afterTime? cs).bind afterZone?) == some []
  | none => afterTime? cs == some []

end Keyfile.Toml
