import Keyfile.Diagnostic.CatalogEncoding
import Keyfile.Error
import Keyfile.Files.Path
import Keyfile.Schema.Encoding
import Keyfile.Settings.Encoding

/-! Schemas, catalogs and settings read from files. -/
namespace Keyfile

variable {m : Type → Type} [Monad m]

/-- Reads a file that the analyzer needs. -/
def FileAccess.need (files : FileAccess m) (path : String) : m (Except AnalyzerError String) := do
  match ← files.readText path with
  | .error fault => pure (.error (.unreadable path fault))
  | .ok text => pure (.ok text)

def Schema.load (files : FileAccess m) (path : String) : m (Except AnalyzerError Schema) := do
  match ← files.need path with
  | .error e => pure (.error e)
  | .ok text =>
    match Schema.ofJson? text with
    | none => pure (.error .badSchema)
    | some schema => pure (.ok schema)

def Catalog.load (files : FileAccess m) (path : String) : m (Except AnalyzerError Catalog) := do
  match ← files.need path with
  | .error e => pure (.error e)
  | .ok text =>
    match Catalog.ofToml? text with
    | none => pure (.error .badCatalog)
    | some catalog => pure (.ok catalog)

/-- The name of the settings file that is looked for next to a document. -/
def Settings.fileName : String := ".configle.toml"

/-- The path of the settings file in a directory, if there is one. -/
def Settings.locate (files : FileAccess m) (directory : String) : m (Option String) := do
  let path := Path.inDirectory directory Settings.fileName
  if ← files.doesExist path then pure (some path) else pure none

/-- Reads settings and refuses faulty ones. -/
def Settings.load (files : FileAccess m) (path : String) : m (Except SettingsFileError Settings) := do
  match ← files.readText path with
  | .error fault => pure (.error (.unreadable path fault))
  | .ok text =>
    match (Toml.read? text).bind Settings.ofData? with
    | none => pure (.error (.unparsable path))
    | some settings =>
      match settings.fault? with
      | some fault => pure (.error (.invalid path fault))
      | none => pure (.ok settings)

end Keyfile
