import QueryBook.Journal
import QueryBook.Session.Failure
import QueryBook.Session.Settings

/-!
# Databases that follow a script

A session runs against databases whose answers are given in advance: each statement sent, over
whatever connection, takes the next answer of one queue. What a session sends is recorded as
events, in order. A cursor belongs to a connection and holds the rows of its last statement that
have not been fetched; a closed cursor refuses to work. Beside the databases there are the
environment and the journal.

A session is a state-passing computation that may fail, and the state survives the failure: what
was sent stays sent.
-/

namespace QueryBook

/-- What a database answers to a statement: an error, or rows if it returns any, and a row count. -/
structure Answer where
  rows : Option (List (List Value)) := none
  rowCount : Int := -1
  error : Option Failure := none
deriving Repr

/-- A cursor. -/
structure Cursor where
  connection : Nat
  /-- The rows not fetched so far. -/
  rows : List (List Value) := []
  /-- Whether the last statement returned rows. -/
  hasResult : Bool := false
  rowCount : Int := -1
  closed : Bool := false
deriving Repr, Inhabited

/-- How a statement is sent. -/
inductive Channel where
  /-- To an embedded database. -/
  | embedded
  /-- To a server, which binds the arguments. -/
  | server
  /-- To a server, with the arguments bound by the driver. -/
  | client
deriving DecidableEq, Repr

/-- Something a session did. -/
inductive Event where
  /-- A statement was sent; `accepted` says that no error came back. -/
  | execute (connection cursor : Nat) (channel : Channel) (command : Command) (accepted : Bool)
  | fetchOne (cursor : Nat)
  | fetchAll (cursor : Nat)
  | closeCursor (cursor : Nat)
  | openFile (connection : Nat) (path : String)
  | openServer (connection : Nat) (info : String) (options : List (String × Value))
  | begin (connection : Nat)
  | commit (connection : Nat)
  | rollback (connection : Nat)
  | close (connection : Nat)
deriving Repr

/-- The databases and what happened to them. -/
structure World where
  /-- The answers to come. -/
  answers : List Answer
  environment : Settings.Environment
  /-- The cursors made so far; the first has the number one. -/
  cursors : List Cursor := []
  /-- How many connections were opened. -/
  connections : Nat := 0
  /-- How many names of prepared statements were given out. -/
  statementNames : Nat := 0
  events : List Event := []
  journal : List LogRecord := []
deriving Repr

/-- A computation on the world that may fail. -/
abbrev Session := EStateM Failure World

namespace Session

variable {α : Type}

/-- Goes on with a result or fails with an error. -/
def ofExcept (x : Except Failure α) : Session α :=
  match x with
  | .ok a => pure a
  | .error e => throw e

/-- Runs `cleanup` after `body`, also when `body` fails. -/
def always (body : Session α) (cleanup : Session Unit) : Session α := fun w =>
  match body w with
  | .ok a w =>
    match cleanup w with
    | .ok _ w => .ok a w
    | .error e w => .error e w
  | .error e w =>
    match cleanup w with
    | .ok _ w => .error e w
    | .error e' w => .error e' w

/-- Records an event. -/
def emit (e : Event) : Session Unit := modify fun w => { w with events := w.events ++ [e] }

/-- Writes to the journal. -/
def log (r : LogRecord) : Session Unit := modify fun w => { w with journal := w.journal ++ [r] }

/-- The cursor of this number. -/
def cursor (id : Nat) : Session Cursor := do return (← get).cursors.getD (id - 1) default

/-- Changes a cursor. -/
def setCursor (id : Nat) (c : Cursor) : Session Unit :=
  modify fun w => { w with cursors := w.cursors.set (id - 1) c }

/-- Makes a cursor. -/
def newCursor (connection : Nat) : Session Nat := do
  let w ← get
  let fresh : Cursor := { connection }
  set { w with cursors := w.cursors ++ [fresh] }
  return w.cursors.length + 1

/-- Takes the next answer; when the script has ended, nothing comes back. -/
def nextAnswer : Session Answer := do
  let w ← get
  match w.answers with
  | [] => return {}
  | a :: rest =>
    set { w with answers := rest }
    return a

/-- Refuses a closed cursor. -/
def refuseClosed (c : Cursor) : Session Unit :=
  if c.closed then
    throw (.raised (.driver .embedded) "ProgrammingError"
      [.text "Cannot operate on a closed cursor."])
  else pure ()

/-- Sends a statement over a cursor. -/
def submit (id : Nat) (channel : Channel) (command : Command) : Session Unit := do
  let c ← cursor id
  refuseClosed c
  let a ← nextAnswer
  emit (.execute c.connection id channel command a.error.isNone)
  match a.error with
  | some e =>
    setCursor id { c with rows := [], hasResult := false, rowCount := -1 }
    throw e
  | none =>
    setCursor id
      { c with rows := a.rows.getD [], hasResult := a.rows.isSome, rowCount := a.rowCount }

/-- Fetches the next row, if there is one. -/
def fetchOne (id : Nat) : Session (Option (List Value)) := do
  let c ← cursor id
  refuseClosed c
  emit (.fetchOne id)
  match c.rows with
  | [] => return none
  | row :: rest =>
    setCursor id { c with rows := rest }
    return some row

/-- Fetches all rows that are left. -/
def fetchAll (id : Nat) : Session (List (List Value)) := do
  let c ← cursor id
  emit (.fetchAll id)
  setCursor id { c with rows := [] }
  return c.rows

/-- Closes a cursor. -/
def closeCursor (id : Nat) : Session Unit := do
  let c ← cursor id
  emit (.closeCursor id)
  setCursor id { c with closed := true }

/-- Numbers a new connection. -/
def newConnection : Session Nat := do
  let w ← get
  set { w with connections := w.connections + 1 }
  return w.connections + 1

/-- Opens an embedded database. -/
def openFile (path : String) : Session Nat := do
  let connection ← newConnection
  emit (.openFile connection path)
  return connection

/-- Connects to a server. -/
def openServer (info : String) (options : List (String × Value)) : Session Nat := do
  let connection ← newConnection
  emit (.openServer connection info options)
  return connection

/-- Closes a connection. -/
def closeConnection (connection : Nat) : Session Unit := emit (.close connection)

/-- How many rows a statement changed; a statement that does not count changed none. -/
def changedRows (id : Nat) : Session Int := do return max (← cursor id).rowCount 0

end Session

end QueryBook
