import Keyfile.Schema.Entry

/-! Dotted paths followed through a schema tree. On each level an entry of the segment's name is
taken; where there is none, the first wildcard entry takes its place. -/
namespace Keyfile

/-- The segments of a dotted path. -/
def segments (path : String) : List String := splitString '.' path

variable {ι : Type} [HasWildcards ι]

/-- The entry of a level that a segment leads to. -/
def choose? (level : List (Entry ι)) (segment : String) : Option (Entry ι) :=
  (level.find? (·.value == segment)).or (level.find? (·.isWildcard))

def Entry.descend? (e : Entry ι) (segment : String) : Option (Entry ι) :=
  e.children.bind (choose? · segment)

/-- The entry that the segments lead to from here. -/
def Entry.follow? (e : Entry ι) : List String → Option (Entry ι)
  | [] => some e
  | s :: ss => (e.descend? s).bind (·.follow? ss)

/-- The entries passed on the way, this one first, as far as the segments lead. -/
def Entry.trail (e : Entry ι) : List String → List (Entry ι)
  | [] => [e]
  | s :: ss =>
    e :: match e.descend? s with
      | none => []
      | some child => child.trail ss

/-- Where a path starts: the first root of that name. No root is reached by an empty name, and none
is a wildcard here. -/
def startAt? (roots : List (Entry ι)) (segment : String) : Option (Entry ι) :=
  if segment.isEmpty then none else roots.find? (·.value == segment)

/-- An entry found, with the number of segments that led to it. -/
structure Resolved (ι : Type) where
  entry : Entry ι
  consumed : Nat

/-- The entry at the end of a path. -/
def resolveSegments? (roots : List (Entry ι)) : List String → Option (Resolved ι)
  | [] => none
  | s :: ss => ((startAt? roots s).bind (·.follow? ss)).map (⟨·, ss.length + 1⟩)

def resolve? (roots : List (Entry ι)) (path : String) : Option (Resolved ι) :=
  resolveSegments? roots (segments path)

/-- What to give for a path that leads nowhere. -/
inductive TrailMode where
  /-- Nothing. -/
  | whole
  /-- The entries passed before it failed. -/
  | longest
  deriving DecidableEq, Repr

/-- The entries on a path, the root first. -/
def trailSegments (mode : TrailMode) (roots : List (Entry ι)) : List String → List (Entry ι)
  | [] => []
  | s :: ss =>
    match startAt? roots s with
    | none => []
    | some root =>
      let found := root.trail ss
      if mode = .whole ∧ found.length < ss.length + 1 then [] else found

def trail (mode : TrailMode) (roots : List (Entry ι)) (path : String) : List (Entry ι) :=
  trailSegments mode roots (segments path)

end Keyfile
