import QueryBook.Code.Module
import QueryBook.CommandLine.Arguments
import QueryBook.CommandLine.Files
import QueryBook.Text.Utf8

/-!
# The command

The command reads the input, generates the module and writes it to a file or to the output. The
journal goes to the error output, all of it if asked for, otherwise only what matters most. What
keeps the input from being read, and what is wrong with it, is reported in the journal; a text
that is not UTF-8, and an output that cannot be written, break the command off.
-/

namespace QueryBook.CommandLine

/-- What breaks the command off. -/
inductive Breakdown where
  /-- The input is not UTF-8. -/
  | undecodable (e : Text.Utf8.Malformed)
  /-- A file cannot be opened. -/
  | file (path : Path) (fault : FileFault)
deriving Repr

/-- The message of a breakdown. -/
def Breakdown.message : Breakdown → String
  | undecodable e => e.message
  | file path fault => fault.message path

/-- What the command leaves behind, beside files. -/
structure Outcome where
  output : String
  errors : String
  /-- The exit status, unless something broke the command off. -/
  status : Except Breakdown Nat
deriving Repr

/-- Line ends of all kinds as line feeds. -/
def unifyLines : List Char → List Char
  | [] => []
  | '\r' :: '\n' :: rest => '\n' :: unifyLines rest
  | '\r' :: rest => '\n' :: unifyLines rest
  | c :: rest => c :: unifyLines rest

/-- How files are read and written. -/
structure FileAccess (m : Type → Type) where
  read : Path → m (Except FileFault (List UInt8))
  write : Path → String → m (Except FileFault Unit)

/-- A record of the command itself. -/
def record (level : Level) (message : String) : LogRecord := { level, logger := "sqlfn", message }

/-- The lines of a journal that are shown. -/
def journalText (verbose : Bool) (records : List LogRecord) : String :=
  let shown := records.filter fun r => verbose || Level.warning.rank ≤ r.level.rank
  String.join (shown.map fun r => r.text ++ "\n")

/-- What comes of the input: a module, or an ending. -/
structure Compiled where
  journal : List LogRecord
  outcome : Except (Except Breakdown Nat) Module

/-- Generates the module of an input that has been read. -/
def compileInput (options : Options) (path : Path) (input : Except FileFault (List UInt8)) :
    Compiled :=
  let reading := record .debug s!"reading {path.text}"
  match input with
  | .error .zeroCharacter =>
    { journal := [reading], outcome := .error (.error (.file path .zeroCharacter)) }
  | .error fault =>
    let report := fault.message path
    { journal := [reading, record .error s!"cannot read {options.input}: {report}"]
      outcome := .error (.ok 2) }
  | .ok bytes =>
    match Text.Utf8.decode bytes with
    | .error e => { journal := [reading], outcome := .error (.error (.undecodable e)) }
    | .ok cs =>
      let config : Config :=
        { strictPlaceholders := options.strict, emitTests := !options.noTests }
      let m := Module.compile config (.ofList (unifyLines cs)) path.name
      match m.outcome with
      | .ok module => { journal := reading :: m.journal, outcome := .ok module }
      | .error e =>
        let report := e.message
        { journal := reading :: m.journal ++ [record .error s!"{options.input}: {report}"]
          outcome := .error (.ok 1) }

/-- Generates and writes the module. -/
def compile {m : Type → Type} [Monad m] (files : FileAccess m) (options : Options) :
    m Outcome := do
  let path := Path.ofText options.input
  let compiled := compileInput options path (← files.read path)
  let errors (more : List LogRecord) : String :=
    journalText options.verbose (compiled.journal ++ more)
  match compiled.outcome with
  | .error status => return { output := "", errors := errors [], status }
  | .ok module =>
    match options.output.filter fun o => !o.isEmpty with
    | none => return { output := module.source, errors := errors [], status := .ok 0 }
    | some output =>
      let target := Path.ofText output
      match ← files.write target module.source with
      | .ok _ =>
        return { output := "", errors := errors [record .info s!"wrote {output}"], status := .ok 0 }
      | .error fault =>
        return { output := "", errors := errors [], status := .error (.file target fault) }

/-- Runs the command. -/
def run {m : Type → Type} [Monad m] (files : FileAccess m) (arguments : List String) :
    m Outcome :=
  match Request.ofArguments arguments with
  | .help => return { output := helpText, errors := "", status := .ok 0 }
  | .misuse complaint => return { output := "", errors := misuseText complaint, status := .ok 2 }
  | .compile options => compile files options

/-- Reads and writes the files of a tree. -/
def treeAccess : FileAccess (StateM FileTree) where
  read path := do return (← get).read path
  write path text := do
    match (← get).write path text.toUTF8.toList with
    | .ok t =>
      set t
      return .ok ()
    | .error fault => return .error fault

end QueryBook.CommandLine
