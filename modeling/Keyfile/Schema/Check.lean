import Keyfile.Diagnostic.Basic
import Keyfile.Schema.Rule
import Keyfile.Text.Floating

/-! The two uses of a rule: to check a value that was written, and to list values to offer. -/
namespace Keyfile

/-- A finite floating point literal, or `Infinity` spelled so. -/
def isFloat (value : List Char) : Bool :=
  match Text.magnitude? value with
  | none => false
  | some m =>
    m.isFinite ||
      (m.isInfinite && (value.dropWhile fun c => c == '+' || c == '-') == "Infinity".toList)

def isInt (value : List Char) : Bool := (Text.int64? value).isSome

def isBool (value : List Char) : Bool := value == "true".toList || value == "false".toList

/-- The complaint about a value that is not of its type. -/
def ValueType.mismatch? (t : ValueType) (value : List Char) : Option Message :=
  match t with
  | .float => if isFloat value then none else some .notFloat
  | .int => if isInt value then none else some .notInt
  | .bool => if isBool value then none else some .notBool
  | .array => none
  | .string => none
  | .custom _ => none

/-- The complaint about a value that does not meet a condition. A range leaves values that are no
integers to the type. -/
def Condition.violation? (c : Condition) (value : String) : Option Message :=
  match c with
  | .oneOf values => if values.contains value then none else some .invalidChoice
  | .between low high =>
    match Text.int64? value.toList with
    | none => none
    | some n => if n < low ∨ high < n then some (.outOfRange low high) else none
  | .unsupported => none

namespace Rule

/-- What default and condition say of a value: a value that equals the default is not checked against
the condition. -/
def checkContent (r : Rule) (value : String) (key valueSpan : Span) : List Diagnostic :=
  if r.defaultValue = some value then
    let whole : Span := ⟨key.start, valueSpan.stop⟩
    [(Diagnostic.hint whole .defaultValue).withFix .remove (.deletion whole)]
  else
    ((r.condition?.bind (·.violation? value)).map (Diagnostic.error valueSpan)).toList

/-- What the type says of a value. -/
def checkType (r : Rule) (value : String) (valueSpan : Span) : List Diagnostic :=
  ((r.valueType.bind (·.mismatch? value.toList)).map (Diagnostic.error valueSpan)).toList

/-- All complaints about a value of a key; `key` and `valueSpan` are the places of the two. -/
def check (r : Rule) (value : String) (key valueSpan : Span) : List Diagnostic :=
  r.checkContent value key valueSpan ++ r.checkType value valueSpan

end Rule

/-- The part of a rule that values to offer come from. -/
inductive SuggestionSource where
  | condition
  | samples
  | default
  deriving DecidableEq, Repr

/-- Values to offer for a key. -/
structure Suggestions where
  source : SuggestionSource
  values : List String
  deriving DecidableEq, Repr

/-- Whether only the values that match what was typed are offered; a default is offered always. -/
def Suggestions.isNarrowed (s : Suggestions) : Bool := s.source != .default

/-- The integers from `low` on, so many of them. -/
def integersFrom (low : Int) : Nat → List Int
  | 0 => []
  | n + 1 => low :: integersFrom (low + 1) n

/-- Values that meet a condition. A range is listed when it spans no more than the limit. -/
def Condition.values? (c : Condition) (limit : Int) : Option (List String) :=
  match c with
  | .oneOf values => some values
  | .between low high =>
    if low ≤ high ∧ high - low ≤ limit then
      some ((integersFrom low ((high - low).toNat + 1)).map decimalString)
    else none
  | .unsupported => none

/-- Values to offer: those of the condition, or else the samples, or else the default. -/
def Rule.suggestions? (r : Rule) (limit : Int) : Option Suggestions :=
  match r.condition?.bind (·.values? limit) with
  | some values => some ⟨.condition, values⟩
  | none =>
    if r.samples.isSome then some ⟨.samples, r.sampleValues⟩
    else r.defaultValue.map fun value => ⟨.default, [value]⟩

end Keyfile
