/-! Files as a program sees them. What is done with files is written for any means of reaching them. -/
namespace Keyfile

/-- Why a file could not be read. -/
inductive FileFault where
  | notFound
  | notADirectory
  | isADirectory
  /-- The bytes of the file are no text. -/
  | notText
  /-- Any other fault, in the words of the system. -/
  | other (words : String)
  deriving DecidableEq, Repr, Inhabited

def FileFault.words : FileFault → String
  | .notFound => "No such file or directory (os error 2)"
  | .notADirectory => "Not a directory (os error 20)"
  | .isADirectory => "Is a directory (os error 21)"
  | .notText => "stream did not contain valid UTF-8"
  | .other words => words

/-- A means of reaching files by their paths. -/
structure FileAccess (m : Type → Type) where
  readText : String → m (Except FileFault String)
  doesExist : String → m Bool

end Keyfile
