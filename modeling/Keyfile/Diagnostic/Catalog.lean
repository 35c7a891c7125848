import Keyfile.Diagnostic.Basic

/-! The words of messages. The built-in catalog is English; another language may leave texts out and
keeps the English ones for them. -/
namespace Keyfile

structure ContainerTexts where
  identifier : String
  unknown : String
  closing : String
  deriving DecidableEq, Repr

structure ValueTexts where
  default : String
  unknown : String
  assign : String
  missing : String
  choice : String
  /-- What stands before the bounds of a range. -/
  range : String
  float : String
  int : String
  bool : String
  deriving DecidableEq, Repr

structure Catalog where
  fix : String
  remove : String
  container : ContainerTexts
  value : ValueTexts
  deriving DecidableEq, Repr

namespace Catalog

def english : Catalog where
  fix := "Fix"
  remove := "Remove"
  container :=
    { identifier := "Container identifier missing"
      unknown := "Container unknown value"
      closing := "Container end missing" }
  value :=
    { default := "Default value"
      unknown := "Unknown value"
      assign := "Value assign missing"
      missing := "Value missing"
      choice := "Unknown enum value"
      range := "Value is out of range"
      float := "Value is not float"
      int := "Value is not int"
      bool := "Value is not bool" }

instance : Inhabited Catalog := ⟨english⟩

def message (c : Catalog) : Message → String
  | .containerNameMissing => c.container.identifier
  | .containerUnknown => c.container.unknown
  | .containerEndMissing => c.container.closing
  | .keyUnknown => c.value.unknown
  | .assignMissing => c.value.assign
  | .valueMissing => c.value.missing
  | .defaultValue => c.value.default
  | .invalidChoice => c.value.choice
  | .outOfRange low high =>
    c.value.range ++ " " ++ decimalString low ++ "-" ++ decimalString high
  | .notFloat => c.value.float
  | .notInt => c.value.int
  | .notBool => c.value.bool

def fixLabel (c : Catalog) : FixLabel → String
  | .fix => c.fix
  | .remove => c.remove

end Catalog

/-- A fix with its label in words. -/
structure RenderedFix where
  label : String
  edit : TextEdit
  deriving DecidableEq, Repr, Inhabited

/-- A diagnostic in words. -/
structure RenderedDiagnostic where
  span : Span
  severity : Severity
  code : String
  message : String
  fixes : List RenderedFix
  deriving DecidableEq, Repr, Inhabited

namespace Catalog

def renderFix (c : Catalog) (f : Fix) : RenderedFix := ⟨c.fixLabel f.label, f.edit⟩

def render (c : Catalog) (d : Diagnostic) : RenderedDiagnostic :=
  ⟨d.span, d.severity, d.message.code, c.message d.message, d.fixes.map c.renderFix⟩

end Catalog
end Keyfile
