import QueryBook.Statement.Template

/-!
# Commands for the driver

A command is the text a driver is given together with its arguments, by position or by name. A
statement run as it stands becomes a template with named arguments, or goes out untouched when it
has no parameters. A prepared statement is run by name, and its arguments fill in as many marks.
-/

namespace QueryBook

/-- The arguments of a command. -/
inductive Arguments where
  | none
  | positional (values : List Value)
  | byName (values : List (String × Value))
deriving Repr

/-- What a driver is given to run. -/
structure Command where
  text : String
  arguments : Arguments
deriving Repr

/-- A statement prepared on the server. -/
structure Prepared where
  /-- The name the server knows it by. -/
  name : String
  statement : String
  /-- The declared parameter types, possibly none. -/
  types : List String
deriving DecidableEq, Repr

/-- A statement to run: as it stands, or prepared before. -/
inductive Runnable where
  | plain (statement : String)
  | prepared (p : Prepared)
deriving DecidableEq, Repr

namespace Command

/-- Values named `p1`, `p2`, … from the position `n` on. -/
def numbered (n : Nat) : List Value → List (String × Value)
  | [] => []
  | v :: vs => (s!"p{n}", v) :: numbered (n + 1) vs

/-- Runs a statement as it stands. -/
def ofStatement (statement : String) (values : List Value) : Command :=
  if values.isEmpty then { text := statement, arguments := .none }
  else
    { text := .ofList (Template.ofStatement statement.toList)
      arguments := .byName (numbered 1 values) }

/-- Runs the prepared statement of this name. -/
def ofPrepared (name : String) (values : List Value) : Command :=
  if values.isEmpty then { text := "EXECUTE " ++ name, arguments := .none }
  else
    let marks := String.intercalate ", " (values.map fun _ => "%s")
    { text := "EXECUTE " ++ name ++ "(" ++ marks ++ ")", arguments := .positional values }

/-- Runs a statement with these values. -/
def ofRunnable (r : Runnable) (values : List Value) : Command :=
  match r with
  | .plain statement => ofStatement statement values
  | .prepared p => ofPrepared p.name values

/-- Prepares a statement under a name. -/
def prepare (p : Prepared) : Command :=
  let types := if p.types.isEmpty then "" else " (" ++ String.intercalate ", " p.types ++ ")"
  { text := "PREPARE " ++ p.name ++ types ++ " AS " ++ p.statement, arguments := .none }

end Command

end QueryBook
