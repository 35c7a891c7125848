import Keyfile.Diagnostic.Edit
import Keyfile.Text.Integer

/-! What an analysis reports. Diagnostics carry the kind of their message; its words are looked up in
a catalog. -/
namespace Keyfile

inductive Severity where
  | hint
  /-- The name may be meant to be unknown. -/
  | warning
  | error
  deriving DecidableEq, Repr, Inhabited

namespace Severity

def name : Severity → String
  | .hint => "hint"
  | .warning => "warning"
  | .error => "error"

/-- Label of a severity in a one-line report. -/
def label : Severity → String
  | .hint => "HINT"
  | .warning => "WARN"
  | .error => "ERROR"

def rank : Severity → Nat
  | .hint => 0
  | .warning => 1
  | .error => 2

/-- The graver of two severities. -/
def max (a b : Severity) : Severity := if a.rank < b.rank then b else a

end Severity

/-- What a diagnostic reports. -/
inductive Message where
  /-- A bracket without a container name. -/
  | containerNameMissing
  | containerUnknown
  /-- A container name without its closing bracket. -/
  | containerEndMissing
  | keyUnknown
  /-- A key without an equals sign. -/
  | assignMissing
  /-- An equals sign without a value. -/
  | valueMissing
  /-- A value that is the default anyway. -/
  | defaultValue
  /-- A value that is not among the listed ones. -/
  | invalidChoice
  | outOfRange (low high : Int)
  | notFloat
  | notInt
  | notBool
  deriving DecidableEq, Repr, Inhabited

namespace Message

/-- The code that identifies a message in every language. -/
def code : Message → String
  | .containerNameMissing => "C001"
  | .containerEndMissing => "C002"
  | .containerUnknown => "C100"
  | .assignMissing => "V001"
  | .valueMissing => "V002"
  | .keyUnknown => "V100"
  | .invalidChoice => "V200"
  | .outOfRange _ _ => "V201"
  | .notFloat => "V202"
  | .notInt => "V203"
  | .notBool => "V204"
  | .defaultValue => "V300"

/-- A plain description, whatever the catalog says. -/
def describe : Message → String
  | .containerNameMissing => "container identifier missing"
  | .containerUnknown => "unknown container"
  | .containerEndMissing => "container end missing"
  | .keyUnknown => "unknown value"
  | .assignMissing => "assign missing"
  | .valueMissing => "value missing"
  | .defaultValue => "redundant default value"
  | .invalidChoice => "invalid enum value"
  | .outOfRange low high => "value out of range " ++ decimalString low ++ "-" ++ decimalString high
  | .notFloat => "value is not float"
  | .notInt => "value is not int"
  | .notBool => "value is not bool"

end Message

/-- What a quick fix does. -/
inductive FixLabel where
  /-- Adds what is missing. -/
  | fix
  /-- Takes away what is redundant. -/
  | remove
  deriving DecidableEq, Repr, Inhabited

/-- A change that settles a diagnostic. -/
structure Fix where
  label : FixLabel
  edit : TextEdit
  deriving DecidableEq, Repr, Inhabited

def Fix.apply (f : Fix) (text : String) : String := f.edit.apply text

structure Diagnostic where
  span : Span
  severity : Severity
  message : Message
  /-- Quick fixes, the preferred one first. -/
  fixes : List Fix
  deriving DecidableEq, Repr, Inhabited

namespace Diagnostic

def error (span : Span) (message : Message) : Diagnostic := ⟨span, .error, message, []⟩
def warning (span : Span) (message : Message) : Diagnostic := ⟨span, .warning, message, []⟩
def hint (span : Span) (message : Message) : Diagnostic := ⟨span, .hint, message, []⟩

def withFix (d : Diagnostic) (label : FixLabel) (edit : TextEdit) : Diagnostic :=
  { d with fixes := d.fixes ++ [⟨label, edit⟩] }

def isError (d : Diagnostic) : Bool := d.severity == .error

/-- One line that says all but the fixes. -/
def describe (d : Diagnostic) : String :=
  "[" ++ d.severity.label ++ "] " ++ decimalString d.span.start ++ ".." ++ decimalString d.span.stop ++
    " " ++ d.message.code ++ ": " ++ d.message.describe

end Diagnostic
end Keyfile
