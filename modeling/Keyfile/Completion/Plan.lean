/-! Results of completion, and how they come about. Where the schema leaves a branch open, the
application is asked: a completion is either settled at once or waits for the answer to one
question. -/
namespace Keyfile

/-- How an option is presented. -/
inductive OptionKind where
  /-- A container name or a default value. -/
  | constant
  /-- A key. -/
  | type
  /-- A wildcard key. -/
  | wildcard
  /-- A value that meets a condition. -/
  | choice
  /-- A sample, or a value that the application knows. -/
  | text
  deriving DecidableEq, Repr, Inhabited

def OptionKind.name : OptionKind → String
  | .constant => "constant"
  | .type => "type"
  | .wildcard => "variable"
  | .choice => "enum"
  | .text => "text"

structure CompletionOption where
  label : String
  detail : Option String
  kind : OptionKind
  deriving DecidableEq, Repr, Inhabited

/-- Options for a range of the text. Without an end the range reaches to the cursor. -/
structure Completion where
  start : Nat
  stop : Option Nat
  options : List CompletionOption
  deriving DecidableEq, Repr, Inhabited

def Completion.labels (c : Completion) : List String := c.options.map (·.label)

/-- What the application is asked for. -/
inductive QueryKind where
  /-- Names below a container. -/
  | container
  /-- Names below a key. -/
  | key
  /-- Names that a wildcard key stands for. -/
  | wildcard
  /-- Values of a key. -/
  | value
  deriving DecidableEq, Repr, Inhabited

def QueryKind.name : QueryKind → String
  | .container => "container"
  | .key => "key"
  | .wildcard => "variable"
  | .value => "value"

/-- A question to the application: what there is at a dotted path, given what was typed. -/
structure Query where
  kind : QueryKind
  path : String
  typed : String
  deriving DecidableEq, Repr, Inhabited

/-- A completion that is settled, or what to ask and how to present the answer. -/
inductive Plan where
  | settled (result : Option Completion)
  | ask (query : Query) (start : Nat) (stop : Option Nat) (kind : OptionKind)
  deriving DecidableEq, Repr

/-- A source of suggestions: labels, or an error. -/
abbrev Provider (m : Type → Type) (ε : Type) := Query → m (Except ε (List String))

/-- The labels of an answer as options for a range. -/
def Completion.ofLabels (start : Nat) (stop : Option Nat) (kind : OptionKind) (labels : List String) :
    Completion :=
  ⟨start, stop, labels.map (⟨·, none, kind⟩)⟩

/-- Carries a plan out. A question that nobody can be asked gives nothing. -/
def Plan.run {m : Type → Type} {ε : Type} [Monad m] (provider : Option (Provider m ε)) :
    Plan → m (Except ε (Option Completion))
  | .settled result => pure (.ok result)
  | .ask query start stop kind =>
    match provider with
    | none => pure (.ok none)
    | some suggest => do
      match ← suggest query with
      | .error e => pure (.error e)
      | .ok labels => pure (.ok (some (.ofLabels start stop kind labels)))

end Keyfile
