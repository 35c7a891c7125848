import Keyfile.Files.Access
import Keyfile.Text.Pieces

/-! A directory kept in memory, with the paths that lead through it. -/
namespace Keyfile

/-- What a name in a directory stands for. -/
inductive FileNode where
  | file (bytes : ByteArray)
  | directory (entries : List (String × FileNode))

abbrev Directory := List (String × FileNode)

namespace Directory

def entry? (d : Directory) (name : String) : Option FileNode := (List.find? (·.1 == name) d).map (·.2)

/-- Puts a node under a name, in the place of an older one. -/
def put (d : Directory) (name : String) (node : FileNode) : Directory :=
  if d.any (·.1 == name) then d.map fun e => if e.1 == name then (name, node) else e
  else d ++ [(name, node)]

/-- Adds a node at the end of a path and makes the directories on the way. -/
def add (node : FileNode) : List String → Directory → Directory
  | [], d => d
  | [name], d =>
    match node, d.entry? name with
    | .directory [], some (.directory _) => d
    | _, _ => d.put name node
  | name :: path, d =>
    match d.entry? name with
    | some (.directory inner) => d.put name (.directory (add node path inner))
    | _ => d.put name (.directory (add node path []))

/-- Where the parts of a path lead from a directory. `outer` holds the directories around it, the
nearest first. What lies around the outermost one counts as an empty directory. -/
def walk (outer : List Directory) (here : Directory) : List String → Except FileFault FileNode
  | [] => .ok (.directory here)
  | part :: path =>
    if part = "" ∨ part = "." then walk outer here path
    else if part = ".." then
      match outer with
      | [] => walk [] [] path
      | d :: ds => walk ds d path
    else
      match here.entry? part with
      | none => .error .notFound
      | some (.directory inner) => walk (here :: outer) inner path
      | some (.file bytes) => if path.isEmpty then .ok (.file bytes) else .error .notADirectory

/-- The node that a path names. The empty path names nothing, and nor does one that starts with a
slash and so does not start in this directory. -/
def locate (d : Directory) (path : String) : Except FileFault FileNode :=
  match splitString '/' path with
  | "" :: _ => .error .notFound
  | parts => walk [] d parts

def readText (d : Directory) (path : String) : Except FileFault String :=
  match d.locate path with
  | .error fault => .error fault
  | .ok (.directory _) => .error .isADirectory
  | .ok (.file bytes) =>
    match String.fromUTF8? bytes with
    | none => .error .notText
    | some text => .ok text

def doesExist (d : Directory) (path : String) : Bool :=
  match d.locate path with
  | .error _ => false
  | .ok _ => true

/-- Access to the files of a directory. -/
def access (d : Directory) : FileAccess Id := ⟨d.readText, d.doesExist⟩

end Directory
end Keyfile
