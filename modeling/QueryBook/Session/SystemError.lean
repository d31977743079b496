import QueryBook.Value

/-!
# Errors of the operating system

An error of the operating system is raised with a code and a description, and possibly with the
file or the two files that it is about. It shows all of them. Some codes have a class of their own,
which the error is of even if it was raised as one of the general class. An error raised with
fewer or more arguments is like any other.
-/

namespace QueryBook

namespace SystemError

/-- The class of all system errors. -/
def general : String := "OSError"

/-- Names of the general class. -/
def generalNames : List String := [general, "IOError", "EnvironmentError"]

/-- The class whose errors may tell how much was written, where others name a file. -/
def unready : String := "BlockingIOError"

/-- The codes that have a class of their own. -/
def classOfCode : List (Int × String) :=
  [(1, "PermissionError"), (2, "FileNotFoundError"), (3, "ProcessLookupError"),
   (4, "InterruptedError"), (10, "ChildProcessError"), (11, unready), (13, "PermissionError"),
   (17, "FileExistsError"), (20, "NotADirectoryError"), (21, "IsADirectoryError"),
   (32, "BrokenPipeError"), (103, "ConnectionAbortedError"), (104, "ConnectionResetError"),
   (108, "BrokenPipeError"), (110, "TimeoutError"), (111, "ConnectionRefusedError"),
   (114, unready), (115, unready)]

/-- All classes of system errors. -/
def classes : List String := generalNames ++ "ConnectionError" :: classOfCode.map Prod.snd

/-- The code that a value stands for, if it is a whole number. -/
def code? : Value → Option Int
  | .int n => some n
  | .bool b => some (if b then 1 else 0)
  | _ => none

/-- The arguments of a system error. -/
structure Details where
  code : Value
  description : Value
  /-- What stands in the place of the first file. -/
  third : Value := .null
  /-- The second file. -/
  fifth : Value := .null

/-- Tells the arguments of a system error apart, if there are as many as one may have. -/
def Details.ofArguments? : List Value → Option Details
  | [code, description] => some { code, description }
  | [code, description, third] | [code, description, third, _] => some { code, description, third }
  | [code, description, third, _, fifth] => some { code, description, third, fifth }
  | _ => none

/-- The class that an error is of when it is raised as one of a class, with arguments. -/
def className (name : String) (args : List Value) : String :=
  if generalNames.contains name then
    let code := (Details.ofArguments? args).bind fun d => code? d.code
    (code.bind fun n => classOfCode.lookup n).getD general
  else name

/-- The files that an error is about. -/
def Details.files (name : String) (d : Details) : List Value :=
  match d.third, d.fifth with
  | .null, _ => []
  | file, other =>
    if name = unready && (code? file).isSome then []
    else match other with
    | .null => [file]
    | _ => [file, other]

/-- What an error of a class says. -/
def Details.message (name : String) (d : Details) : String :=
  let start := s!"[Errno {d.code.plain}] {d.description.plain}"
  match (d.files name).map Value.display with
  | [] => start
  | files =>
    let shown := String.intercalate " -> " files
    s!"{start}: {shown}"

end SystemError

end QueryBook
