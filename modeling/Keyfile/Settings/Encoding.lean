import Keyfile.Data.Shape
import Keyfile.Settings

/-! Settings as data. What is left out keeps its default. -/
namespace Keyfile

namespace CompletionSettings

def ofData? (d : Data) : Option CompletionSettings :=
  let base : CompletionSettings := default
  match Shape.fields? ["enum_range_limit", "case_insensitive"] d with
  | some [limit, ignoreCase] => do
    let limit ← Shape.orDefault base.rangeLimit Shape.int64? limit
    let ignoreCase ← Shape.orDefault base.ignoreCase Shape.flag? ignoreCase
    some ⟨limit, ignoreCase⟩
  | _ => none

def toData (s : CompletionSettings) : Data :=
  .object [("enum_range_limit", .int s.rangeLimit), ("case_insensitive", .bool s.ignoreCase)]

end CompletionSettings

namespace Features

def ofData? (d : Data) : Option Features :=
  let base : Features := default
  match Shape.fields? ["diagnostics", "completion", "hover"] d with
  | some [diagnostics, completion, hover] => do
    let diagnostics ← Shape.orDefault base.diagnostics Shape.flag? diagnostics
    let completion ← Shape.orDefault base.completion Shape.flag? completion
    let hover ← Shape.orDefault base.hover Shape.flag? hover
    some ⟨diagnostics, completion, hover⟩
  | _ => none

def toData (f : Features) : Data :=
  .object [("diagnostics", .bool f.diagnostics), ("completion", .bool f.completion), ("hover", .bool f.hover)]

end Features

namespace Settings

def ofData? (d : Data) : Option Settings :=
  let base : Settings := default
  match Shape.fields? ["source", "locale_file", "completion", "features"] d with
  | some [source, localeFile, completion, features] => do
    let source ← Shape.orDefault base.source Shape.text? source
    let localeFile ← Shape.orDefault base.localeFile (Shape.nullable Shape.text?) localeFile
    let completion ← Shape.orDefault base.completion CompletionSettings.ofData? completion
    let features ← Shape.orDefault base.features Features.ofData? features
    some ⟨source, localeFile, completion, features⟩
  | _ => none

def toData (s : Settings) : Data :=
  .object
    [("source", .text s.source), ("locale_file", .orNull (s.localeFile.map .text)),
     ("completion", s.completion.toData), ("features", s.features.toData)]

end Settings

end Keyfile
