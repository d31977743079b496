import QueryBook.Session.Cardinality
import QueryBook.Session.Object

/-!
# What generated code calls

The operations of the libraries that generated code imports, of connections and caches, of byte
sources and sets of names, and of handles. Each takes the objects it is made for and refuses
others. A statement that is no text is refused like this too, which happens only where the caller
of a generated function gets to choose the statement.
-/

namespace QueryBook

open Run (lift need)

namespace Library

/-- A text with its marks filled in, one after the other. -/
def fill : List Char → List String → List Char
  | '%' :: 's' :: rest, shown :: more => shown.toList ++ fill rest more
  | c :: rest, more => c :: fill rest more
  | [], _ => []

/-- A record of the generated module. -/
def record (level : Level) (format : String) (shown : List String) : LogRecord :=
  { level, logger := "generated", message := .ofList (fill format.toList shown) }

/-- The level that an operation of the log reports at. -/
def level? : String → Option Level
  | "debug" => some .debug
  | "error" => some .error
  | _ => none

/-- The column type that a library has under a name. -/
def column? : String → Option ColumnType
  | "INT" => some .int
  | "FLOAT" => some .float
  | "BOOL" => some .bool
  | "STR" => some .text
  | "BYTES" => some .bytes
  | _ => none

/-- Calls an operation of a library. -/
def invoke : Library → String → List Object → Run Object
  | types, "optional", [.column t] => pure (.column (.optional t))
  | types, "decode_row", [.value (.row row), columns] => do
    let types ← need columns.columns?
    return .value (.row (← lift (Session.ofExcept (ColumnType.decodeRow types row))))
  | results, "expect_one", [rows, statement] => do
    let rows ← need rows.list?
    let statement ← need statement.text?
    lift (Session.ofExcept ((Cardinality.one (some statement) rows).mapError Failure.rows))
  | results, "expect_opt", [rows, statement] => do
    let rows ← need rows.list?
    let statement ← need statement.text?
    let row? ← lift (Session.ofExcept
      ((Cardinality.atMostOne (some statement) rows).mapError Failure.rows))
    return row?.getD .null
  | embedded, "execute", [.connection .embedded c, statement, params] => do
    let statement ← need statement.text?
    let params ← need params.named?
    return .value (.int (← lift (Session.executeFile c statement params)))
  | embedded, "query_row", [.connection .embedded c, statement, params, columns, .mapper f] => do
    let statement ← need statement.text?
    let params ← need params.named?
    let row ← lift (Session.fetchRowFile c statement params)
    let types ← need columns.columns?
    return .value (← lift (Session.ofExcept ((ColumnType.decodeRow types row).bind f)))
  | driver, "connect", [path] => do
    let path ← need path.text?
    return .connection .embedded (← lift (Session.openFile path))
  | server, "testing_client", [] =>
    return .connection .network (← lift (Session.connectForTest none))
  | log, operation, format :: args => do
    let level ← need (level? operation)
    let format ← need format.text?
    let shown ← need (args.mapM Object.shown?)
    lift (Session.log (record level format shown))
    return .null
  | _, _, _ => throw .misuse

end Library

namespace Run

/-- Calls an operation of a connection to an embedded database. -/
def onFile (c : Nat) : String → List Object → Run Object
  | "execute", [statement, params] => do
    let statement ← need statement.text?
    let params ← need params.values?
    let id ← lift (Session.newCursor c)
    lift (Session.submit id .embedded { text := statement, arguments := .positional params })
    return .cursor id
  | "close", [] => do
    lift (Session.closeConnection c)
    return .null
  | _, _ => throw .misuse

/-- Runs something over a client if it can be run; what cannot be run has a cursor made for it
nevertheless. -/
def overClient {α : Type} (c : Nat) (statement : Object) (run : Runnable → Session α) : Run α :=
  match statement.runnable? with
  | some r => lift (run r)
  | none => lift (Session.withCursor c fun _ => throw .misuse)

/-- Calls an operation of a client. -/
def onClient (c : Nat) : String → List Object → Run Object
  | "prepare", [statement] => do
    let statement ← need statement.text?
    return .prepared (← lift (Session.prepare c (statement, [])))
  | "execute", [statement] => do
    return .value (.int (← overClient c statement fun r => Session.execute c r []))
  | "execute", [statement, params] => do
    let params ← need params.values?
    return .value (.int (← overClient c statement fun r => Session.execute c r params))
  | "query", [statement, params] => do
    let params ← need params.values?
    let rows ← overClient c statement fun r => Session.query c r params
    return .list (rows.map fun row => .value (.row row))
  | _, _ => throw .misuse

/-- Calls an operation of a cache. -/
def onCache (number : Int) : String → List Object → Run Object
  | "prepare", [statement, .connection .network c] => do
    let statement ← need statement.text?
    let (p, cache) ←
      lift (Session.prepareCached ((← get).shelf.get number) c (statement, []))
    modify fun m => { m with shelf := m.shelf.put number cache }
    return .prepared p
  | _, _ => throw .misuse

/-- Makes a byte source. -/
def newSource (s : ByteSource) : Run Nat := do
  let m ← get
  set { m with sources := m.sources ++ [s] }
  return m.sources.length

/-- Makes a set of names. -/
def newNames (names : List String) : Run Nat := do
  let m ← get
  set { m with nameSets := m.nameSets ++ [names] }
  return m.nameSets.length

/-- The byte source of this number. -/
def source (number : Nat) : Run ByteSource := do
  need (← get).sources[number]?

/-- The set of names of this number. -/
def names (number : Nat) : Run (List String) := do
  need (← get).nameSets[number]?

/-- Calls an operation of a byte source. -/
def onSource (number : Nat) : String → List Object → Run Object
  | "arbitrary", [.column t] => do
    let (v, rest) := (← source number).draw t
    modify fun m => { m with sources := m.sources.set number rest }
    return .value v
  | _, _ => throw .misuse

/-- Calls an operation of a set of names. -/
def onNames (number : Nat) : String → List Object → Run Object
  | "add", [name] => do
    let name ← need name.text?
    let known ← names number
    modify fun m => { m with nameSets := m.nameSets.set number (known ++ [name]) }
    return .null
  | _, _ => throw .misuse

/-- Calls an operation that a handle has from its library, whatever its class adds. -/
def onHandle (className : String) (h : Handle) : String → List Object → Run Object
  | "_execute", [params] => do
    return .value (.int (← lift (h.execute (← need params.named?))))
  | "_query_map", [params, .mapper f] => do
    return .rows (← lift (h.rows (← need params.named?) f))
  | "_query", [params] => do
    return .rows (← lift (h.rows (← need params.named?) Mapper.columns))
  | "_query_row", [params, .mapper f] => do
    return .value (← lift (h.firstRow (← need params.named?) f))
  | "close", [] => do
    lift h.close
    return .null
  | operation, _ => throw (.noOperation className operation)

end Run

namespace Object

/-- Something that an object has under a name: an operation, unless it is known already. -/
def member : Object → String → Object
  | library .types, name =>
    match Library.column? name with
    | some t => column t
    | none => method (library .types) name
  | prepared p, "sql" => value (.text p.statement)
  | o, name => method o name

/-- Calls an object that is not defined by the module. -/
def invoke : Object → List Object → Run Object
  | method (library l) name, args => l.invoke name args
  | method (connection .embedded c) name, args => Run.onFile c name args
  | method (connection .network c) name, args => Run.onClient c name args
  | method (cache number) name, args => Run.onCache number name args
  | method (source number) name, args => Run.onSource number name args
  | method (names number) name, args => Run.onNames number name args
  | method (handle c h) name, args => Run.onHandle c.name h name args
  | method o name, _ => throw (.noOperation o.className name)
  | builtin .byteSource, [value (.bytes data)] => do
    return source (← Run.newSource (.ofBytes data))
  | builtin .nameSet, [] => do
    return names (← Run.newNames [])
  | _, _ => throw .misuse

/-- Closes what was open for a block. -/
def close : Object → Run Unit
  | connection _ c => lift (Session.closeConnection c)
  | _ => throw .misuse

/-- The names in a set. -/
def members : Object → Run (List String)
  | names number => Run.names number
  | _ => throw .misuse

/-- What a module has under a name without defining it. -/
def imported : String → Run Object
  | "_t" => pure (library .types)
  | "_res" => pure (library .results)
  | "_sqlite" => pure (library .embedded)
  | "sqlite3" => pure (library .driver)
  | "_pg" => pure (library .server)
  | "_log" => pure (library .log)
  | "Unstructured" => pure (builtin .byteSource)
  | "RAW_TEST_DATA" => pure (value (.bytes ByteSource.testData))
  | "set" => pure (builtin .nameSet)
  | name => throw (.undefined name)

end Object

end QueryBook
