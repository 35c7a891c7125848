import Keyfile.Completion.Plan
import Keyfile.Files.Access
import Keyfile.Settings

/-! What can go wrong in an analysis. A name that is not found is not an error. -/
namespace Keyfile

inductive AnalyzerError where
  | unreadable (path : String) (fault : FileFault)
  /-- The schema is no JSON or has the wrong shape. -/
  | badSchema
  /-- The message catalog is no TOML or has the wrong shape. -/
  | badCatalog
  | badSettings (fault : SettingsFault)
  /-- The application could not answer a question. -/
  | provider (kind : QueryKind) (path reason : String)
  deriving DecidableEq, Repr, Inhabited

namespace AnalyzerError

def message : AnalyzerError → String
  | .unreadable path fault => "Failed to read '" ++ path ++ "': " ++ fault.words
  | .badSchema => "Invalid schema"
  | .badCatalog => "Invalid message catalog"
  | .badSettings fault => "Invalid configuration: " ++ fault.reason
  | .provider kind path reason =>
    "Suggestion provider failed for " ++ kind.name ++ " '" ++ path ++ "': " ++ reason

/-- The message, then the fault behind it. -/
def chain : AnalyzerError → List String
  | .unreadable path fault => [message (.unreadable path fault), fault.words]
  | e => [e.message]

end AnalyzerError

/-- Why a settings file could not be used. -/
inductive SettingsFileError where
  | unreadable (path : String) (fault : FileFault)
  | unparsable (path : String)
  | invalid (path : String) (fault : SettingsFault)
  deriving DecidableEq, Repr

namespace SettingsFileError

/-- What was being done with the file. -/
def context : SettingsFileError → String
  | .unreadable path _ => "Failed to read config file: " ++ path
  | .unparsable path => "Failed to parse config file: " ++ path
  | .invalid path _ => "Invalid config file: " ++ path

/-- What went wrong, where the words are fixed. -/
def cause? : SettingsFileError → Option String
  | .unreadable _ fault => some fault.words
  | .unparsable _ => none
  | .invalid _ fault => some (AnalyzerError.badSettings fault).message

def chain (e : SettingsFileError) : List String := e.context :: e.cause?.toList

end SettingsFileError
end Keyfile
