import QueryBook.Session.Cache
import QueryBook.Session.World

/-!
# Running statements on a server

A client is an open connection; inside a transaction the same connection serves. Each statement
goes over a cursor of its own, which is closed in the end whatever happens. A statement is
prepared under a name that no other statement of the program has, given out even if preparing
fails.

The statement is not the only thing that may fail: a driver may also refuse to make the cursor, to
fetch its rows or to close it.
-/

namespace QueryBook

/-- What a driver refuses to do with the cursor of a statement, and why; by default nothing. -/
structure CursorFaults where
  making : Option Failure := none
  fetching : Option Failure := none
  closing : Option Failure := none
deriving Repr

namespace Session

variable {α : Type}

/-- Fails if there is a reason to. -/
def refuse : Option Failure → Session Unit
  | some e => throw e
  | none => pure ()

/-- Runs `body` with a cursor of its own. -/
def withCursor (connection : Nat) (body : Nat → Session α) (faults : CursorFaults := {}) :
    Session α := do
  refuse faults.making
  let id ← newCursor connection
  always (body id) do
    closeCursor id
    refuse faults.closing

/-- The next name for a prepared statement. -/
def newStatementName : Session String := do
  let w ← get
  set { w with statementNames := w.statementNames + 1 }
  return s!"sqlfn_{w.statementNames + 1}"

/-- Prepares a statement. -/
def prepare (client : Nat) (key : CacheKey) (faults : CursorFaults := {}) : Session Prepared := do
  let name ← newStatementName
  let p : Prepared := { name, statement := key.1, types := key.2 }
  withCursor client (fun id => submit id .server (Command.prepare p)) faults
  log { level := .debug, logger := "sqlfn.runtime.postgres",
        message := s!"prepared {name}: {p.statement}" }
  return p

/-- Prepares a statement unless it is cached. -/
def prepareCached (cache : StatementCache) (client : Nat) (key : CacheKey)
    (faults : CursorFaults := {}) : Session (Prepared × StatementCache) := do
  let (p, cache, r) ← cache.request key fun key => prepare client key faults
  log r
  return (p, cache)

/-- How a statement is sent: the arguments of a prepared one are bound by the driver. -/
def channelOf : Runnable → Channel
  | .plain _ => .server
  | .prepared _ => .client

/-- Runs a statement for its effect. -/
def execute (client : Nat) (r : Runnable) (values : List Value) (faults : CursorFaults := {}) :
    Session Int :=
  withCursor client (fun id => do
    submit id (channelOf r) (Command.ofRunnable r values)
    changedRows id) faults

/-- Runs a statement for its rows. -/
def query (client : Nat) (r : Runnable) (values : List Value) (faults : CursorFaults := {}) :
    Session (List (List Value)) :=
  withCursor client (fun id => do
    submit id (channelOf r) (Command.ofRunnable r values)
    refuse faults.fetching
    fetchAll id) faults

/-- Connects to a server; statements commit on their own unless the options say otherwise. -/
def connect (info : String) (options : List (String × Value)) : Session Nat :=
  let commits := options.any fun o => o.1 == "autocommit"
  openServer info (if commits then options else options ++ [("autocommit", .bool true)])

/-- Connects to the test server, by default the one the environment names. -/
def connectForTest (info : Option String) : Session Nat := do
  let info ← match info with
    | some info => pure info
    | none => ofExcept (Settings.connectionString (← get).environment)
  connect info [("autocommit", .bool true)]

end Session

end QueryBook
