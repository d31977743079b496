import QueryBook.Session.World

/-!
# Running registered tests

A registry lists tests by name, in order. To register a name again replaces its test and keeps its
place. All tests are run, whatever becomes of the others, and a failing one is reported.
-/

namespace QueryBook

/-- Tests by name. -/
abbrev TestRegistry := List (String × Session Unit)

/-- How a test ended. -/
structure TestOutcome where
  name : String
  error : Option Failure
deriving Repr

/-- Whether the test passed. -/
def TestOutcome.passed (o : TestOutcome) : Bool := o.error.isNone

namespace TestRegistry

/-- Registers a test. -/
def register (name : String) (test : Session Unit) : TestRegistry → TestRegistry
  | [] => [(name, test)]
  | (other, t) :: rest =>
    if other = name then (name, test) :: rest else (other, t) :: register name test rest

/-- Registers tests one after another. -/
def ofEntries (entries : List (String × Session Unit)) : TestRegistry :=
  entries.foldl (fun r e => register e.1 e.2 r) []

/-- The registered names. -/
def names (r : TestRegistry) : List String := r.map Prod.fst

/-- Runs one test; it never fails itself. -/
def runOne (name : String) (test : Session Unit) : Session TestOutcome :=
  tryCatch (do test; return { name, error := none }) fun e => do
    let report := e.message
    Session.log { level := .error, logger := "sqlfn.runtime.testing",
                  message := s!"{name} failed: {report}" }
    return { name, error := some e }

/-- Runs all tests. -/
def run : TestRegistry → Session (List TestOutcome)
  | [] => return []
  | (name, test) :: rest => do
    let first ← runOne name test
    let others ← run rest
    return first :: others

end TestRegistry

end QueryBook
