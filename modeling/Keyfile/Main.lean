import Keyfile.CommandLine.Run

/-! The command line program. -/
namespace Keyfile.CommandLine

/-- The number of a system error, which is reported with either sign. -/
def errorNumber (code : UInt32) : Nat := min code.toNat (0x100000000 - code.toNat)

/-- The fault behind an error of the system. -/
def faultOf : IO.Error → FileFault
  | .noFileOrDirectory _ _ _ => .notFound
  | .inappropriateType _ code words =>
    if errorNumber code = 20 then .notADirectory
    else if errorNumber code = 21 then .isADirectory
    else .other words
  | e => .other e.toString

/-- Reads a file of the system as a text. -/
def readSystemFile (path : String) : IO (Except FileFault String) := do
  try
    let bytes ← IO.FS.readBinFile path
    match String.fromUTF8? bytes with
    | none => pure (.error .notText)
    | some text => pure (.ok text)
  catch e => pure (.error (faultOf e))

/-- Access to the files of the system. -/
def systemFiles : FileAccess IO where
  readText := readSystemFile
  doesExist path := do
    match ← readSystemFile path with
    | .error .notFound => pure false
    | .error .notADirectory => pure false
    | _ => pure true

end Keyfile.CommandLine

def main (args : List String) : IO UInt32 := do
  let outcome ← Keyfile.CommandLine.run Keyfile.CommandLine.systemFiles args
  IO.print outcome.output
  match outcome with
  | .printed _ _ => pure ()
  | .usage => IO.eprint Keyfile.CommandLine.usageText
  | .failed chain => IO.eprintln ("Error: " ++ ": ".intercalate chain)
  pure outcome.exit.toUInt32
