import Keyfile.Text.Pieces

/-! Paths of files, with their parts between slashes. -/
namespace Keyfile.Path

/-- The path of a file in a directory. -/
def inDirectory (directory name : String) : String :=
  if directory.isEmpty || directory.toList.getLast? == some '/' then directory ++ name
  else directory ++ "/" ++ name

/-- Drops the parts at the end of a path that lead nowhere: empty ones and single points, except for
the first part. The parts are given last first. -/
def dropIdle : List (List Char) → List (List Char)
  | [] => []
  | [part] => [part]
  | part :: next :: rest => if part = [] ∨ part = ['.'] then dropIdle (next :: rest) else part :: next :: rest

/-- The directory that a path lies in; an empty one is the working directory. -/
def parent? (path : String) : Option String :=
  match dropIdle (Text.pieces '/' path.toList).reverse with
  | [] => none
  | [[]] => none
  | [_] => some ""
  | _ :: rest =>
    match dropIdle rest with
    | [[]] => some "/"
    | parts => some (String.ofList (Text.joined '/' parts.reverse))

end Keyfile.Path
