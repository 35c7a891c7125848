import Keyfile.Adjacency.Table
import Keyfile.Completion.Complete
import Keyfile.Hover
import Keyfile.Loading

/-! Everything an editor session needs: a schema, settings and the words of messages. Nothing is
remembered between two requests. -/
namespace Keyfile

structure Analyzer where
  schema : Schema
  settings : Settings
  catalog : Catalog

namespace Analyzer

/-- An analyzer with English messages. Its settings are taken as they are. -/
def plain (schema : Schema) (settings : Settings) : Analyzer := ⟨schema, settings, .english⟩

/-- An analyzer with the message catalog that its settings name; faulty settings are refused. -/
def create {m : Type → Type} [Monad m] (files : FileAccess m) (schema : Schema) (settings : Settings) :
    m (Except AnalyzerError Analyzer) := do
  match settings.fault? with
  | some fault => pure (.error (.badSettings fault))
  | none =>
    match settings.localeFile with
    | none => pure (.ok (plain schema settings))
    | some path =>
      match ← Catalog.load files path with
      | .error e => pure (.error e)
      | .ok catalog => pure (.ok ⟨schema, settings, catalog⟩)

def diagnose (a : Analyzer) (d : Document) : List Diagnostic :=
  if a.settings.features.diagnostics then Keyfile.diagnose a.schema d else []

def render (a : Analyzer) (diagnostics : List Diagnostic) : List RenderedDiagnostic :=
  diagnostics.map a.catalog.render

def completer (a : Analyzer) (d : Document) : Completer := ⟨a.schema, a.settings.completion, d⟩

/-- What completion at an offset takes. -/
def plan (a : Analyzer) (d : Document) (offset : Nat) : Plan :=
  if a.settings.features.completion then (a.completer d).atOffset offset else .settled none

def completeAt {m : Type → Type} [Monad m] {ε : Type} (a : Analyzer) (provider : Option (Provider m ε))
    (d : Document) (offset : Nat) : m (Except ε (Option Completion)) :=
  if a.settings.features.completion then ((a.completer d).completeAt provider offset).run else pure (.ok none)

def hoverAt (a : Analyzer) (d : Document) (offset : Nat) : Option HoverInfo :=
  if a.settings.features.hover then Keyfile.hoverAt a.schema d offset else none

end Analyzer
end Keyfile
