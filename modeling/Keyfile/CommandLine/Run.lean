import Keyfile.CommandLine.Arguments
import Keyfile.Completion.Encoding
import Keyfile.Diagnostic.Encoding
import Keyfile.Document.Scan
import Keyfile.Analyzer

/-! What the command line does with its arguments, for any access to files. -/
namespace Keyfile.CommandLine

/-- How a run of the command line ends. -/
inductive Outcome where
  /-- Something is printed. -/
  | printed (exit : Nat) (text : String)
  /-- The arguments make no sense. -/
  | usage
  /-- Something went wrong: what was being done, and why it failed. -/
  | failed (chain : List String)
  deriving DecidableEq, Repr

/-- The exit status of a run: one for documents with errors, two for failures. -/
def Outcome.exit : Outcome → Nat
  | .printed exit _ => exit
  | .usage => 2
  | .failed _ => 2

def Outcome.output : Outcome → String
  | .printed _ text => text
  | _ => ""

def versionText : String := "configle 0.1.0\n"

def usageText : String := "Usage: configle [OPTIONS] <COMMAND>\n"

def helpText : String :=
  "Check configuration documents against a schema\n\n" ++ usageText ++
  "\nCommands:\n" ++
  "  check     Report diagnostics; exits with status 1 if any error is found\n" ++
  "  complete  List completions at a byte offset\n" ++
  "  hover     Show hover breadcrumbs at a byte offset\n" ++
  "  help      Print this message or the help of the given subcommand(s)\n" ++
  "\nOptions:\n" ++
  "  -s, --schema <SCHEMA>  JSON schema with `containers` and `keys` [default: schema.json]\n" ++
  "  -c, --config <CONFIG>  Analyzer settings (defaults to `.configle.toml` next to the document)\n" ++
  "  -p, --pretty           Pretty-print JSON output\n" ++
  "  -h, --help             Print help\n" ++
  "  -V, --version          Print version\n"

/-- Data as a line or as an indented block. -/
def rendered (pretty : Bool) (d : Data) : String := (if pretty then Json.pretty d else Json.compact d) ++ "\n"

variable {m : Type → Type} [Monad m]

/-- The settings of a request: from the file it names, or else from one next to the document. -/
def loadSettings (files : FileAccess m) (r : Request) : m (Except (List String) Settings) := do
  let path ← match r.settings, Path.parent? r.document with
    | some path, _ => pure (some path)
    | none, some directory => Settings.locate files directory
    | none, none => pure none
  match path with
  | none => pure (.ok default)
  | some path =>
    match ← Settings.load files path with
    | .error e => pure (.error e.chain)
    | .ok settings => pure (.ok settings)

/-- The analyzer of a request. -/
def loadAnalyzer (files : FileAccess m) (r : Request) : m (Except (List String) Analyzer) := do
  match ← Schema.load files r.schema with
  | .error e => pure (.error (("Failed to load schema: " ++ r.schema) :: e.chain))
  | .ok schema =>
    match ← loadSettings files r with
    | .error chain => pure (.error chain)
    | .ok settings =>
      match ← Analyzer.create files schema settings with
      | .error e => pure (.error ("Failed to set up analyzer" :: e.chain))
      | .ok analyzer => pure (.ok analyzer)

/-- The result of a task. Nobody is asked for suggestions. -/
def perform (a : Analyzer) (d : Document) (pretty : Bool) : Task → Outcome
  | .check =>
    let diagnostics := a.diagnose d
    .printed (if diagnostics.any (·.isError) then 1 else 0)
      (rendered pretty (.list ((a.render diagnostics).map (·.toData))))
  | .complete offset =>
    match a.completeAt (none : Option (Provider Id Unit)) d offset with
    | .ok result => .printed 0 (rendered pretty (.orNull (result.map (·.toData))))
    | .error _ => .failed ["Completion failed"]
  | .hover offset => .printed 0 (rendered pretty (.orNull ((a.hoverAt d offset).map (·.toData))))

/-- Serves a request. -/
def serve (files : FileAccess m) (r : Request) : m Outcome := do
  match ← loadAnalyzer files r with
  | .error chain => pure (.failed chain)
  | .ok analyzer =>
    match ← files.readText r.document with
    | .error fault => pure (.failed ["Failed to read document: " ++ r.document, fault.words])
    | .ok text => pure (perform analyzer (scan text) r.pretty r.task)

/-- Runs the command line. -/
def run (files : FileAccess m) (args : List String) : m Outcome :=
  match readArguments args with
  | .error .refused => pure .usage
  | .error .version => pure (.printed 0 versionText)
  | .error .help => pure (.printed 0 helpText)
  | .ok request => serve files request

end Keyfile.CommandLine
