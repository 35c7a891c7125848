import Keyfile.Adjacency.Machine
import Keyfile.Analyzer
import Keyfile.Text.Quoted

/-! One-line outlines of nodes, table rows and analyzers, for logs. -/
namespace Keyfile

namespace Outline

def named (parts : List (String × String)) : String :=
  ", ".intercalate (parts.map fun (name, content) => name ++ ": " ++ content)

/-- A structure with all its parts. -/
def whole (name : String) (parts : List (String × String)) : String :=
  name ++ " \x7b " ++ named parts ++ " \x7d"

/-- A structure with parts that are left out. -/
def excerpt (name : String) (parts : List (String × String)) : String :=
  name ++ " \x7b " ++ named parts ++ ", .. \x7d"

def optional : Option String → String
  | none => "None"
  | some content => "Some(" ++ content ++ ")"

def listed (items : List String) : String := "[" ++ ", ".intercalate items ++ "]"

def flag (b : Bool) : String := if b then "true" else "false"

end Outline

open Outline

/-- A node with its range and text. -/
def Document.outline (d : Document) (c : Cursor) : String :=
  c.kind.tag ++ "@" ++ decimalString c.span.start ++ ".." ++ decimalString c.span.stop ++ " "
    ++ quoted (d.textOf c)

def Adjacency.State.outline : Adjacency.State → String
  | .containerStart => "ContainerStart"
  | .containerName => "ContainerIdentifier"
  | .containerEnd => "ContainerEnd"
  | .keyName => "ValueIdentifier"
  | .assign => "Assign"
  | .value => "Value"

/-- A row without its checks. -/
def Adjacency.Row.outline (r : Adjacency.Row) : String :=
  excerpt "Transition"
    [("from", optional (r.source.map (·.outline))), ("triggers", listed (r.triggers.map (·.tag))),
     ("to", r.target.outline), ("leave", listed (r.leave.map (·.tag)))]

def ValueType.outline : ValueType → String
  | .array => "Array"
  | .string => "String"
  | .float => "Float"
  | .int => "Int"
  | .bool => "Bool"
  | .custom name => "Custom(" ++ quoted name ++ ")"

def Rule.outline (r : Rule) : String :=
  whole "AssignRule"
    [("value_type", optional (r.valueType.map (·.outline))),
     ("default_value", optional (r.defaultValue.map quoted)),
     ("example", optional (r.samples.map quoted)), ("condition", optional (r.conditionText.map quoted))]

def KeyRole.outline : KeyRole → String
  | .group => "Namespace"
  | .value => "Value"
  | .wildcard => "Variable"

def KeyInfo.outline (i : KeyInfo) : List (String × String) :=
  [("kind", i.role.outline), ("assign_rule", optional (i.rule.map (·.outline)))]

mutual
/-- An entry, given the name of its kind of entry and what that kind adds. -/
def Entry.outline {ι : Type} (kind : String) (extra : ι → List (String × String)) : Entry ι → String
  | ⟨value, title, info, children⟩ =>
    whole kind ([("value", quoted value), ("title", quoted title)] ++ extra info
      ++ [("children", Entry.outlineLevel kind extra children)])
def Entry.outlineLevel {ι : Type} (kind : String) (extra : ι → List (String × String)) :
    Option (List (Entry ι)) → String
  | none => optional none
  | some entries => optional (some (listed (Entry.outlineAll kind extra entries)))
def Entry.outlineAll {ι : Type} (kind : String) (extra : ι → List (String × String)) :
    List (Entry ι) → List String
  | [] => []
  | e :: es => e.outline kind extra :: Entry.outlineAll kind extra es
end

def Schema.outline (s : Schema) : String :=
  whole "Schema"
    [("containers", listed (Entry.outlineAll "SchemaEntry" (fun _ => []) s.containers)),
     ("keys", listed (Entry.outlineAll "KeySchemaEntry" KeyInfo.outline s.keys))]

def Settings.outline (s : Settings) : String :=
  whole "AnalyzerConfig"
    [("source", quoted s.source), ("locale_file", optional (s.localeFile.map quoted)),
     ("completion", whole "CompletionConfig"
       [("enum_range_limit", decimalString s.completion.rangeLimit),
        ("case_insensitive", flag s.completion.ignoreCase)]),
     ("features", whole "FeaturesConfig"
       [("diagnostics", flag s.features.diagnostics), ("completion", flag s.features.completion),
        ("hover", flag s.features.hover)])]

/-- An analyzer without its catalog, and whether somebody answers its questions. -/
def Analyzer.outline (a : Analyzer) (hasProvider : Bool) : String :=
  excerpt "ConfigAnalyzer"
    [("schema", a.schema.outline), ("config", a.settings.outline), ("provider", flag hasProvider)]

end Keyfile
