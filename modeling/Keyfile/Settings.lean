import Keyfile.Text.Blank

/-! Settings of an analyzer. -/
namespace Keyfile

structure CompletionSettings where
  /-- The widest range whose values are offered one by one. -/
  rangeLimit : Int
  /-- Whether typed text matches in any case of letters. -/
  ignoreCase : Bool
  deriving DecidableEq, Repr

structure Features where
  diagnostics : Bool
  completion : Bool
  hover : Bool
  deriving DecidableEq, Repr

structure Settings where
  /-- The name under which diagnostics are reported. -/
  source : String
  /-- A message catalog to use in place of the English one. -/
  localeFile : Option String
  completion : CompletionSettings
  features : Features
  deriving DecidableEq, Repr

instance : Inhabited CompletionSettings := ⟨⟨256, true⟩⟩
instance : Inhabited Features := ⟨⟨true, true, true⟩⟩
instance : Inhabited Settings := ⟨⟨"configle", none, default, default⟩⟩

/-- What is wrong with settings. -/
inductive SettingsFault where
  | negativeRangeLimit
  | emptySource
  deriving DecidableEq, Repr

def SettingsFault.reason : SettingsFault → String
  | .negativeRangeLimit => "completion.enum_range_limit must be >= 0"
  | .emptySource => "source must not be empty"

/-- The first fault of settings. A source of blanks counts as empty. -/
def Settings.fault? (s : Settings) : Option SettingsFault :=
  if s.completion.rangeLimit < 0 then some .negativeRangeLimit
  else if (Text.trim s.source.toList).isEmpty then some .emptySource
  else none

end Keyfile
