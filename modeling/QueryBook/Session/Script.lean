import QueryBook.Session.Program

/-!
# Scripts of calls

A script calls the operations of a generated module and of a client one after another. It has an
embedded database and a client, both open, caches by number, and variables that keep handles, rows
and prepared statements from one call to the next. Each call is reported with what it returned, or
why it failed, and with the events and records that came of it. A failing call does not end the
script.

A block of calls may run in a transaction, which is committed at its end, and rolled back if a
call in it fails or asks for it.
-/

namespace QueryBook

/-- What becomes of the columns of a row. -/
inductive RowMap where
  /-- All columns. -/
  | columns
  /-- The first column. -/
  | first
  /-- How many columns there are. -/
  | count
  /-- Nothing: mapping fails. -/
  | fail
deriving DecidableEq, Repr

/-- The mapper of a choice. -/
def RowMap.mapper : RowMap → Mapper
  | columns => Mapper.columns
  | first => fun
    | v :: _ => .ok v
    | [] => .error (.language "IndexError" "tuple index out of range")
  | count => fun values => .ok (.int values.length)
  | fail => fun _ => .error (.language "ValueError" "mapper failed")

/-- How many rows are expected. -/
inductive RowCount where
  | any | one | atMostOne
deriving DecidableEq, Repr

/-- A call of a generated function. -/
inductive Call where
  /-- Runs the query for its effect, or the prepared statement kept in a variable. -/
  | execute (on : Option String) (values : List Value)
  | firstRow (values : List Value) (map : RowMap)
  /-- Decodes the rows of the query, or of the prepared statement kept in a variable. -/
  | queue (count : RowCount) (on : Option String) (values : List Value)
  | prepare (keep : Option String)
  | prepareCached (cache : Int) (keep : Option String)
  | fromRow (row : List Value)
  | setup (data : List UInt8) (visited : List String)
  | test
deriving Repr

/-- The role of the function that is called. -/
def Call.role : Call → Role
  | execute none _ => .execute
  | execute (some _) _ => .executePrepared
  | firstRow _ _ => .queryRow
  | queue .any none _ => .queue
  | queue .any (some _) _ => .queuePrepared
  | queue .one none _ => .queueOne
  | queue .one (some _) _ => .queueOnePrepared
  | queue .atMostOne none _ => .queueOpt
  | queue .atMostOne (some _) _ => .queueOptPrepared
  | prepare _ => .prepare
  | prepareCached _ _ => .prepareCached
  | fromRow _ => .fromRow
  | setup _ _ => .testSetup
  | test => .test

/-- A call of an operation of a handle. -/
inductive HandleCall where
  | execute (values : List Value)
  | firstRow (values : List Value) (map : RowMap)
  | rows (values : List Value)
  | mappedRows (values : List Value) (map : RowMap)
  | close
deriving Repr

/-- The name of the operation. -/
def HandleCall.name : HandleCall → String
  | execute _ => "execute"
  | firstRow _ _ => "query_row"
  | rows _ => "query"
  | mappedRows _ _ => "query_map"
  | close => "close"

/-- The arguments of the operation. -/
def HandleCall.arguments : HandleCall → List Object
  | execute values | rows values => values.map .value
  | firstRow values map | mappedRows values map => values.map .value ++ [.mapper map.mapper]
  | close => []

/-- What a client runs: a text, or the prepared statement kept in a variable. -/
inductive Target where
  | statement (text : String)
  | kept (name : String)
deriving Repr

/-- A step of a script. -/
inductive Step where
  | call (query : String) (c : Call)
  | onHandle (on : String) (c : HandleCall) (keep : Option String)
  /-- The next of the rows kept in a variable. -/
  | next (on : String)
  /-- All of the rows kept in a variable that are left. -/
  | list (on : String)
  | runTests
  /-- An operation of a handle that is of neither kind. -/
  | unownedRun
  | prepare (key : CacheKey) (keep : Option String)
  | execute (target : Target) (values : List Value)
  | query (target : Target) (values : List Value)
  | transaction (steps : List Step)
  | rollback
  | connect (info : String) (options : List (String × Value))
  | connectForTest (info : Option String)
  | closeClient
  /-- Whether the client has the connection that was seen first by such a step. -/
  | sameConnection
deriving Repr

/-- What a step returns. -/
inductive Result where
  | value (v : Value)
  | prepared (p : Prepared)
  /-- The next row, or the end. -/
  | item (v : Option Value)
  | outcomes (os : List TestOutcome)
  /-- How many bytes are left of a byte source. -/
  | remaining (n : Nat)
  /-- What the steps of a block returned. -/
  | block (rs : List Result)

/-- Nothing of interest is returned. -/
def Result.null : Result := .value .null

/-- What an object is to the caller: a handle and rows are known by their class. -/
def Result.ofObject : Object → Result
  | .value v => .value v
  | .prepared p => .prepared p
  | .list items => .value (.row (items.filterMap Object.value?))
  | o => .value (.text o.className)

/-- What runs statements on a server: a connection, or a transaction on it. -/
structure Client where
  connection : Nat
  inTransaction : Bool := false
deriving DecidableEq, Repr

/-- The class of a client. -/
def Client.className (c : Client) : String :=
  if c.inTransaction then "PgTransaction" else "PgClient"

/-- The client as an object. -/
def Client.object (c : Client) : Object := .connection .network c.connection

/-- What a script calls: a program, and the backends of the queries it was made from. -/
structure Subject where
  program : Program
  backends : List (String × Backend)

namespace Subject

/-- Nothing to call. -/
def empty : Subject := { program := .empty, backends := [] }

/-- The program of a text, or why there is none. -/
def ofText (config : Config) (text sourceName : String) : Except Module.Error Subject := do
  let book ← (Book.read text sourceName).mapError .unreadable
  let m ← (Module.build config .standard book).outcome.mapError .code
  pure { program := .ofModule m, backends := book.queries.map fun q => (q.name, q.backend) }

end Subject

/-- The state of a script. -/
structure Machine where
  memory : Memory
  subject : Subject
  /-- The connection to the embedded database. -/
  file : Nat
  client : Client
  bindings : List (String × Object) := []
  /-- The connection seen first. -/
  firstSeen : Option Nat := none
  /-- The queries visited by the last setup routine that the current step called. -/
  visited : Option (List String) := none

/-- A computation on the state of a script. -/
abbrev Script := EStateM Failure Machine

namespace Script

variable {α : Type}

/-- A computation of generated code. -/
def lift (x : Run α) : Script α := fun m =>
  match x m.memory with
  | .ok a memory => .ok a { m with memory }
  | .error e memory => .error e { m with memory }

/-- A session on the databases alone. -/
def liftSession (x : Session α) : Script α := lift (Run.lift x)

/-- Keeps something in a variable, if one is given. -/
def keep (name : Option String) (o : Object) : Script Unit :=
  match name with
  | some name => modify fun m => { m with bindings := (name, o) :: m.bindings }
  | none => pure ()

/-- What a variable keeps. -/
def kept (name : String) : Script Object := do
  match (← get).bindings.lookup name with
  | some o => return o
  | none => throw (.unset name)

/-- The rows that a variable keeps. -/
def keptRows (complaint name : String) : Script Rows := do
  match ← kept name with
  | .rows r => return r
  | o => throw (.language "TypeError" s!"'{o.className}' object is not {complaint}")

/-- Calls an object. -/
def apply (o : Object) (args : List Object) : Script Object := do
  let p := (← get).subject.program
  lift (p.call p.depth o args)

/-- Calls a setup routine when some queries have been visited already. -/
def setup (routine connection : Object) (data : List UInt8) (visited : List String) :
    Script Result := do
  let source ← lift (Run.newSource (.ofBytes data))
  let names ← lift (Run.newNames visited)
  let note : Script Unit := modify fun m => { m with visited := m.memory.nameSets[names]? }
  let _ ← tryCatch (apply routine [.source source, .names names, connection]) fun e => do
    note
    throw e
  note
  return .remaining (← lift (Run.source source)).remaining

/-- The arguments that a form of a query adds. -/
def statementArguments : Option String → Script (List Object)
  | none => return []
  | some name => return [← kept name]

/-- Calls a generated function on the connection of its backend. -/
def callFunction (backend : Backend) (f : Object) (c : Call) : Script Result := do
  let m ← get
  let connection : Object :=
    match backend with
    | .embedded => .connection .embedded m.file
    | .network => m.client.object
  match c with
  | .execute on values | .queue _ on values => do
    let statement ← statementArguments on
    return .ofObject (← apply f (connection :: statement ++ values.map .value))
  | .firstRow values map =>
    return .ofObject (← apply f (connection :: values.map .value ++ [.mapper map.mapper]))
  | .prepare name => do
    let o ← apply f [connection]
    keep name o
    return .ofObject o
  | .prepareCached i name => do
    let cache : List Object :=
      match backend with
      | .embedded => []
      | .network => [.cache i]
    let o ← apply f (connection :: cache)
    keep name o
    return .ofObject o
  | .fromRow row => return .ofObject (← apply f [.value (.row row)])
  | .setup data visited => setup f connection data visited
  | .test => return .ofObject (← apply f [])

/-- Calls a generated function. -/
def call (query : String) (c : Call) : Script Result := do
  let s := (← get).subject
  let name := c.role.ident query
  match s.backends.lookup query, (s.program.find? name).isSome with
  | some backend, true => do callFunction backend (← lift (s.program.lookup name)) c
  | _, _ => throw (Program.missing name)

/-- Calls an operation of the handle kept in a variable. -/
def onHandle (on : String) (c : HandleCall) (name : Option String) : Script Result := do
  let o ← apply (.method (← kept on) c.name) c.arguments
  keep name o
  return .ofObject o

/-- What a client is to run. -/
def targetObject : Target → Script Object
  | .statement text => return .value (.text text)
  | .kept name => kept name

/-- Calls an operation of the client. -/
def onClient (operation : String) (target : Target) (values : List Value) : Script Result := do
  let o ← targetObject target
  let client := (← get).client.object
  return .ofObject (← apply (.method client operation) [o, .tuple (values.map .value)])

/-- Makes another connection the client. -/
def useClient (connection : Nat) : Script Result := do
  modify fun m => { m with client := { connection } }
  return .null

mutual

/-- One step. -/
def step : Step → Script Result
  | .call query c => call query c
  | .onHandle on c name => onHandle on c name
  | .next on => do
    let r ← keptRows "an iterator" on
    let (v, r) ← liftSession r.next
    keep (some on) (.rows r)
    return .item v
  | .list on => do
    let r ← keptRows "iterable" on
    let (vs, r) ← liftSession r.drain
    keep (some on) (.rows r)
    return .value (.row vs)
  | .runTests => do
    let os ← liftSession (← get).subject.program.registry.run
    return .outcomes os
  | .unownedRun => throw (.raised .language "NotImplementedError" [])
  | .prepare key name => do
    let p ← liftSession (Session.prepare (← get).client.connection key)
    keep name (.prepared p)
    return .prepared p
  | .execute target values => onClient "execute" target values
  | .query target values => onClient "query" target values
  | .transaction steps => do
    let client := (← get).client
    if client.inTransaction then throw (.noOperation client.className "transaction")
    liftSession (Session.emit (.begin client.connection))
    modify fun m => { m with client := { client with inTransaction := true } }
    let leave (e : Event) : Script Unit := do
      modify fun m => { m with client }
      liftSession (Session.emit e)
    let (rs, undone) ← tryCatch (block steps) fun e => do
      leave (.rollback client.connection)
      throw e
    leave (if undone then .rollback client.connection else .commit client.connection)
    return .block rs
  | .rollback => do throw (.noOperation (← get).client.className "rollback")
  | .connect info options => do useClient (← liftSession (Session.connect info options))
  | .connectForTest info => do useClient (← liftSession (Session.connectForTest info))
  | .closeClient => do
    let client := (← get).client
    if client.inTransaction then
      throw (.language "TypeError"
        s!"'{client.className}' object does not support the context manager protocol")
    liftSession (Session.closeConnection client.connection)
    return .value (.bool true)
  | .sameConnection => do
    let m ← get
    let first := m.firstSeen.getD m.client.connection
    set { m with firstSeen := some first }
    return .value (.bool (m.client.connection = first))

/-- The steps of a block, up to one that asks for the block to be rolled back. -/
def block : List Step → Script (List Result × Bool)
  | [] => return ([], false)
  | s :: rest => do
    if let .rollback := s then
      if (← get).client.inTransaction then return ([], true)
    let r ← step s
    let (rs, undone) ← block rest
    return (r :: rs, undone)

end

/-- The report on a step. -/
structure Report where
  outcome : Except Failure Result
  events : List Event
  journal : List LogRecord
  /-- If a setup routine was called, the names of the queries visited by the last one. -/
  visited : Option (List String)

/-- The names that a setup leaves as visited, each once, in order. -/
def visitedNames (names : List String) : List String :=
  names.eraseDups.mergeSort fun a b => !decide (b < a)

/-- One step and its report. -/
def report (s : Step) (m : Machine) : Report × Machine :=
  let world := { m.memory.world with events := [], journal := [] }
  let fresh : Machine := { m with memory := { m.memory with world }, visited := none }
  let about (outcome : Except Failure Result) (m : Machine) : Report :=
    { outcome, events := m.memory.world.events, journal := m.memory.world.journal,
      visited := m.visited.map visitedNames }
  match step s fresh with
  | .ok r m => (about (.ok r) m, m)
  | .error e m => (about (.error e) m, m)

/-- The reports on the steps of a script. -/
def reports (m : Machine) : List Step → List Report
  | [] => []
  | s :: rest =>
    let (r, m) := report s m
    r :: reports m rest

/-- Where a script starts: with two connections open. -/
def start (subject : Subject) (answers : List Answer) (environment : Settings.Environment) :
    Machine :=
  { memory := { world := { answers, environment, connections := 2 } }, subject, file := 1,
    client := { connection := 2 } }

/-- Runs a script. -/
def run (subject : Subject) (answers : List Answer) (environment : Settings.Environment)
    (steps : List Step) : List Report :=
  reports (start subject answers environment) steps

end Script

end QueryBook
