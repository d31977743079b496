import QueryBook.Code.Access

/-!
# Test setup routines and entry points

Every tested query, and every query that a test depends on, gets a setup routine. The routine does
nothing if its query was visited before; otherwise it marks the query as visited, calls the
routines of its dependencies in order, and runs the query with values drawn from a byte source.
Because the mark comes first, a query that several others share runs once, and a circle of
dependencies ends.

A tested query also gets an entry point, which opens a fresh connection and calls the routine with
nothing visited and a fixed byte source. A registry at the end lists the entry points.

Writing stops at the first query that cannot be set up, and what was written before stays written.
-/

namespace QueryBook

/-- The queries that need a setup routine: the tested ones and their dependencies, in order. -/
def Book.setupTargets (b : Book) : List Query :=
  let referenced := b.queries.flatMap Query.dependencyNames
  b.queries.filter fun q => q.isTested || referenced.contains q.name

/-- A setup routine. -/
structure SetupRoutine where
  query : String
  /-- The backend whose code it is. -/
  backend : Backend
  /-- The queries whose routines it calls, in order. -/
  dependencies : List String
  /-- The values it runs the query with. -/
  values : List Expr
deriving Repr

namespace SetupRoutine

/-- The name of the routine. -/
def name (r : SetupRoutine) : String := Role.testSetup.ident r.query

/-- The connection that the routine is given. -/
def connection (r : SetupRoutine) : Expr := .argument r.backend.connectionName

/-- The routines it calls. -/
def calls (r : SetupRoutine) : List String := r.dependencies.map Role.testSetup.ident

/-- The lines up to the last dependency. -/
def guard (r : SetupRoutine) : List BodyLine :=
  .leaveIf r.query "visited" ::
    .run (.call (.field (.argument "visited") "add") [.quoted r.query]) ::
    r.calls.map fun routine =>
      .run (.call (.global routine) [.argument "u", .argument "visited", r.connection])

/-- A report on the query. -/
def report (r : SetupRoutine) (level format : String) (more : List Expr) : Expr :=
  .call (.field (.global "_log") level) (.quoted format :: .quoted r.query :: more)

/-- What is done about the errors of the query: those that setup passes over are reported, and so
are those of the driver, which go on their way. -/
def handlers (r : SetupRoutine) : List Handler :=
  (r.backend.toleratedErrors.map fun error =>
    { error, binding := none, body := [r.report "debug" "setup of %s returned rows" []]
      again := false }) ++
    [{ error := .driver r.backend, binding := some "exc"
       body := [r.report "error" "setup of %s failed: %s" [.argument "exc"]], again := true }]

/-- The line that runs the query. -/
def run (r : SetupRoutine) : BodyLine :=
  .attempt (.call (.global (Role.execute.ident r.query)) (r.connection :: r.values)) r.handlers

/-- The routine as a function. -/
def function (r : SetupRoutine) : Function :=
  { name := r.name
    leading := [⟨"u", some "Unstructured"⟩, ⟨"visited", some "set[str]"⟩, r.backend.connection]
    parameters := []
    trailing := []
    result := "None"
    doc := none
    body := r.guard ++ [r.run] }

/-- What the routine would be up to the last dependency. -/
def broken (r : SetupRoutine) : Function := { r.function with body := r.guard }

end SetupRoutine

/-- The entry point of a tested query. -/
structure EntryPoint where
  query : String
  /-- The backend whose code it is. -/
  backend : Backend
deriving DecidableEq, Repr

namespace EntryPoint

/-- The name of the entry point. -/
def name (e : EntryPoint) : String := Role.test.ident e.query

/-- The routine it calls. -/
def call (e : EntryPoint) : String := Role.testSetup.ident e.query

/-- Calls the routine with a fresh byte source and nothing visited. -/
def setup (e : EntryPoint) : Expr :=
  .call (.global e.call)
    [.call (.global "Unstructured") [.global "RAW_TEST_DATA"], .call (.global "set") [],
     .argument e.backend.connectionName]

/-- The lines that open a connection and call the routine. -/
def body (e : EntryPoint) : List BodyLine :=
  match e.backend with
  | .embedded =>
    [.assign "conn" (.call (.field (.global "sqlite3") "connect") [.quoted ":memory:"]),
     .ensure e.setup (.call (.field (.argument "conn") "close") [])]
  | .network =>
    [.whileOpen (.call (.field (.global "_pg") "testing_client") []) "client"
      [.call (.field (.argument "client") "execute") [.quoted "SET search_path TO pg_temp"],
       e.setup]]

/-- The entry point as a function. -/
def function (e : EntryPoint) : Function :=
  { name := e.name
    leading := []
    parameters := []
    trailing := []
    result := "None"
    doc := some s!"Run the setup of ``{e.query}`` against a fresh connection."
    body := e.body }

end EntryPoint

/-- What was written, what it defines, and whether something stopped the writing. -/
structure Written where
  items : List Item
  definitions : List Definition
  error : Option CodeError

namespace Written

/-- Items that define nothing and that nothing can stop. -/
def just (items : List Item) : Written := { items, definitions := [], error := none }

/-- Items behind which something stopped the writing. -/
def stopped (items : List Item) (e : CodeError) : Written :=
  { items, definitions := [], error := some e }

/-- A function that nothing can stop. -/
def ofFunction (f : Function) : Written :=
  { items := (Definition.functionDef f).items, definitions := [.functionDef f], error := none }

/-- One after the other, unless the first was stopped. -/
def andThen (first second : Written) : Written :=
  match first.error with
  | some _ => first
  | none =>
    { items := first.items ++ second.items
      definitions := first.definitions ++ second.definitions
      error := second.error }

end Written

namespace Setup

/-- Which backend generates the code for the queries of a backend, if any does. -/
abbrev Generators := Backend → Option Backend

/-- The longest beginning of the dependencies that are there, and the first that is not. -/
def knownDependencies (b : Book) : List String → List String × Option String
  | [] => ([], none)
  | name :: rest =>
    if (b.find? name).isSome then
      let (known, missing) := knownDependencies b rest
      (name :: known, missing)
    else ([], some name)

/-- Writes the routine of a query. -/
def writeRoutine (generators : Generators) (b : Book) (q : Query) : Written :=
  match generators q.backend with
  | none => .stopped [] (.noGenerator q.backend q.name)
  | some backend =>
    match q.drawnArguments "u" with
    | .error e => .stopped [] e
    | .ok values =>
      let (dependencies, missing) := knownDependencies b q.dependencyNames
      let routine : SetupRoutine := { query := q.name, backend, dependencies, values }
      match missing with
      | none => .ofFunction routine.function
      | some name =>
        .stopped (Definition.functionDef routine.broken).items (.unknownDependency name q.name)

/-- Writes the entry point of a query. -/
def writeEntryPoint (generators : Generators) (q : Query) : Written :=
  match generators q.backend with
  | none => .stopped [] (.noGenerator q.backend q.name)
  | some backend => .ofFunction (EntryPoint.function { query := q.name, backend })

/-- Writes one after another, until something stops the writing. -/
def writeAll {α : Type} (write : α → Written) : List α → Written
  | [] => .just []
  | a :: rest => (write a).andThen (writeAll write rest)

/-- The names of the entry points, in order. -/
def entryPointNames (b : Book) : List String := b.tested.map fun q => Role.test.ident q.name

/-- The registry of entry points. -/
def registryItems (names : List String) : List Item :=
  [.blank 2, .block "AUTO_TESTS: dict[str, Callable[[], None]] = \x7b"
    (names.map fun n => .line s!"\"{n}\": {n},"), .line "\x7d"]

/-- Writes the test scaffolding of a book that has setup targets. -/
def write (generators : Generators) (b : Book) : Written :=
  (Written.just [.banner "test setup"]).andThen
    ((writeAll (writeRoutine generators b) b.setupTargets).andThen
      ((Written.just [.banner "test entry points"]).andThen
        ((writeAll (writeEntryPoint generators) b.tested).andThen
          (.just (registryItems (entryPointNames b))))))

/-- The report on the scaffolding. -/
def summary (b : Book) : String :=
  let routines := b.setupTargets.length
  let entries := b.tested.length
  s!"generated {routines} setup routine(s), {entries} entry point(s)"

/-- The names of the entry points, with a report, or what stopped the writing. -/
def outcome (generators : Generators) (b : Book) : Journaled CodeError (List String) :=
  match (write generators b).error with
  | some e => .lift (.error e)
  | none => do
    .log .info "sqlfn.compile.testgen" (summary b)
    pure (entryPointNames b)

end Setup

end QueryBook
