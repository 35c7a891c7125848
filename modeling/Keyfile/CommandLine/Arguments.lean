import Keyfile.Text.Integer
import Keyfile.Text.Pieces

/-! The arguments of the command line. They are read from left to right: options that concern every
command, the name of a command, then its document and options. -/
namespace Keyfile.CommandLine

/-- What can be done with a document. -/
inductive Command where
  | check
  | complete
  | hover
  deriving DecidableEq, Repr

def Command.ofName? : String → Option Command
  | "check" => some .check
  | "complete" => some .complete
  | "hover" => some .hover
  | _ => none

/-- Whether a command works at an offset. -/
def Command.takesOffset : Command → Bool
  | .check => false
  | .complete => true
  | .hover => true

/-- An option that takes a value. -/
inductive ValueOption where
  | schema
  | settings
  | offset
  deriving DecidableEq, Repr

/-- An option: one with a value, or one that is a whole word. -/
inductive OptionName where
  | withValue (option : ValueOption)
  | pretty
  | version
  | help
  deriving DecidableEq, Repr

/-- Options with a value may stand before and after the command, except for the offset, which the
command must take; the version is shown before any command only. -/
def OptionName.isKnown (command : Option Command) : OptionName → Bool
  | .withValue .offset => (command.map (·.takesOffset)).getD false
  | .version => command.isNone
  | _ => true

def OptionName.ofLong? : String → Option OptionName
  | "schema" => some (.withValue .schema)
  | "config" => some (.withValue .settings)
  | "offset" => some (.withValue .offset)
  | "pretty" => some .pretty
  | "version" => some .version
  | "help" => some .help
  | _ => none

def OptionName.ofShort? : Char → Option OptionName
  | 's' => some (.withValue .schema)
  | 'c' => some (.withValue .settings)
  | 'o' => some (.withValue .offset)
  | 'p' => some .pretty
  | 'V' => some .version
  | 'h' => some .help
  | _ => none

/-- What was given on one side of the command. -/
structure Given where
  schema : Option String
  settings : Option String
  pretty : Bool
  offset : Option Nat
  document : Option String
  deriving DecidableEq, Repr

def Given.nothing : Given := ⟨none, none, false, none, none⟩

/-- Why reading stopped before the last argument was understood. -/
inductive Stop where
  /-- The arguments make no sense. -/
  | refused
  | version
  | help
  deriving DecidableEq, Repr

/-- Where reading stands: what came before the command, the command, what came after it, an option
that still waits for its value, and whether options have come to their end. -/
structure Progress where
  before : Given
  command : Option Command
  after : Given
  awaiting : Option ValueOption
  optionsEnded : Bool
  deriving DecidableEq, Repr

namespace Progress

def start : Progress := ⟨.nothing, none, .nothing, none, false⟩

/-- What was given on the side that is being read. -/
def here (p : Progress) : Given := if p.command.isSome then p.after else p.before

def setHere (p : Progress) (given : Given) : Progress :=
  if p.command.isSome then { p with after := given } else { p with before := given }

/-- Notes the value of an option. A second one is refused, and so is an empty path. -/
def setValue (p : Progress) (option : ValueOption) (value : String) : Except Stop Progress :=
  let given := p.here
  let p := { p with awaiting := none }
  match option with
  | .schema =>
    if given.schema.isSome || value.isEmpty then .error .refused
    else .ok (p.setHere { given with schema := some value })
  | .settings =>
    if given.settings.isSome || value.isEmpty then .error .refused
    else .ok (p.setHere { given with settings := some value })
  | .offset =>
    match given.offset, Text.word64? value.toList with
    | none, some n => .ok (p.setHere { given with offset := some n })
    | _, _ => .error .refused

/-- Notes an option without a value. -/
def setPretty (p : Progress) : Except Stop Progress :=
  if p.here.pretty then .error .refused else .ok (p.setHere { p.here with pretty := true })

/-- Reads a long option, with the value after its equals sign if it has one. -/
def takeLong (p : Progress) (name : String) (attached : Option String) : Except Stop Progress :=
  match (OptionName.ofLong? name).filter (·.isKnown p.command), attached with
  | some (.withValue option), some value => p.setValue option value
  | some (.withValue option), none => .ok { p with awaiting := some option }
  | some .pretty, none => p.setPretty
  | some .version, none => .error .version
  | some .help, none => .error .help
  | _, _ => .error .refused

/-- Reads short options written in one. What follows an option with a value is that value, with or
without an equals sign between them. -/
def takeShorts (p : Progress) : List Char → Except Stop Progress
  | [] => .ok p
  | c :: cs =>
    match (OptionName.ofShort? c).filter (·.isKnown p.command) with
    | some (.withValue option) =>
      match cs with
      | [] => .ok { p with awaiting := some option }
      | '=' :: value => p.setValue option (String.ofList value)
      | value => p.setValue option (String.ofList value)
    | some .pretty =>
      match p.setPretty with
      | .error stop => .error stop
      | .ok p => p.takeShorts cs
    | some .version => .error .version
    | some .help => .error .help
    | none => .error .refused

/-- Takes an argument that is no option: the name of a command, then one document. -/
def takePlain (p : Progress) (arg : String) : Except Stop Progress :=
  match p.command with
  | none =>
    if p.optionsEnded then .error .refused
    else if arg = "help" then .error .help
    else
      match Command.ofName? arg with
      | none => .error .refused
      | some command => .ok { p with command := some command }
  | some _ =>
    if p.after.document.isSome || arg.isEmpty then .error .refused
    else .ok { p with after := { p.after with document := some arg } }

/-- The name and the attached value of a long option. -/
def splitLong (cs : List Char) : String × Option String :=
  match cs.dropWhile (· != '=') with
  | [] => (String.ofList cs, none)
  | _ :: value => (String.ofList (cs.takeWhile (· != '=')), some (String.ofList value))

/-- Reads an argument that looks like an option; a lone dash does not. An option that still waits for
its value does not get one then. -/
def takeOption (p : Progress) (body : List Char) : Except Stop Progress :=
  if p.awaiting.isSome then .error .refused
  else
    match body with
    | ['-'] => .ok { p with optionsEnded := true }
    | '-' :: long => p.takeLong (splitLong long).1 (splitLong long).2
    | shorts => p.takeShorts shorts

/-- Reads one argument. -/
def take (p : Progress) (arg : String) : Except Stop Progress :=
  if p.optionsEnded then p.takePlain arg
  else
    match arg.toList with
    | '-' :: c :: cs => p.takeOption (c :: cs)
    | _ =>
      match p.awaiting with
      | some option => p.setValue option arg
      | none => p.takePlain arg

end Progress

/-- What to do with the document of a request. -/
inductive Task where
  | check
  | complete (offset : Nat)
  | hover (offset : Nat)
  deriving DecidableEq, Repr

/-- Arguments that have been understood. -/
structure Request where
  schema : String
  settings : Option String
  pretty : Bool
  document : String
  task : Task
  deriving DecidableEq, Repr

/-- The schema that is used when no other is named. -/
def defaultSchema : String := "schema.json"

def Command.task? (offset : Option Nat) : Command → Option Task
  | .check => some .check
  | .complete => offset.map .complete
  | .hover => offset.map .hover

/-- The request at the end of the arguments. What was given after the command counts more than what
was given before it. -/
def Progress.finish (p : Progress) : Except Stop Request :=
  match p.awaiting, p.command.bind (·.task? p.after.offset), p.after.document with
  | none, some task, some document =>
    .ok
      { schema := (p.after.schema <|> p.before.schema).getD defaultSchema
        settings := p.after.settings <|> p.before.settings
        pretty := p.after.pretty || p.before.pretty
        document := document
        task := task }
  | _, _, _ => .error .refused

def takeAll (p : Progress) : List String → Except Stop Progress
  | [] => .ok p
  | arg :: args =>
    match p.take arg with
    | .error stop => .error stop
    | .ok p => takeAll p args

/-- Understands the arguments of the command line. -/
def readArguments (args : List String) : Except Stop Request :=
  match takeAll .start args with
  | .error stop => .error stop
  | .ok p => p.finish

end Keyfile.CommandLine
