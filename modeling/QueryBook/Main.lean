import QueryBook.CommandLine.Run

/-!
# The program

The command on the files of the system.
-/

namespace QueryBook.CommandLine

/-- The fault of an error number, which some systems give with its sign changed. -/
def faultOfCode (code : UInt32) (text : String) : FileFault :=
  match min code.toNat (-code).toNat with
  | 2 => .missing
  | 20 => .notDirectory
  | 21 => .isDirectory
  | 36 => .nameTooLong
  | number => .other number text

/-- Why the system does not open a file. -/
def faultOf : IO.Error → FileFault
  | .noFileOrDirectory .. => .missing
  | .inappropriateType _ code text => faultOfCode code text
  | .illegalOperation code text => faultOfCode code text
  | .invalidArgument _ code text => faultOfCode code text
  | .permissionDenied _ code text => faultOfCode code text
  | .otherError code text => faultOfCode code text
  | e => .other 0 (toString e)

/-- Runs an action on a file. -/
def guarded {α : Type} (action : IO α) : IO (Except FileFault α) := do
  try return .ok (← action)
  catch e => return .error (faultOf e)

/-- Reads and writes the files of the system. -/
def systemAccess : FileAccess IO where
  read path := guarded do return (← IO.FS.readBinFile path.text).toList
  write path text := guarded (IO.FS.writeFile path.text text)

end QueryBook.CommandLine

/-- Runs the command and gives its exit status. -/
def main (arguments : List String) : IO UInt32 := do
  let outcome ← QueryBook.CommandLine.run QueryBook.CommandLine.systemAccess arguments
  IO.print outcome.output
  IO.eprint outcome.errors
  match outcome.status with
  | .ok status => return .ofNat status
  | .error breakdown =>
    IO.eprintln breakdown.message
    return 1
