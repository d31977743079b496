import QueryBook.Code.Access

/-!
# Access to an embedded database

A query gets two kinds of handle, one with a cursor of its own and one that leaves its statement
to the driver's cache, with the same operations on both, and functions that do without a handle.
The operations that return rows exist only for a query with outputs. Parameters are bound by name.
-/

namespace QueryBook.Embedded

/-- The library that the generated code calls. -/
def library : Expr := .global "_sqlite"

/-- The argument `self` of a method. -/
def self : Argument := { name := "self", hint := none }

/-- A call of an operation of the handle itself. -/
def onSelf (operation : String) (args : List Expr) : BodyLine :=
  .result (.call (.field (.argument "self") operation) args)

/-- A method of a handle. -/
def method (name : String) (parameters trailing : List Argument) (result : String)
    (body : List BodyLine) : Function :=
  { name, leading := [self], parameters, trailing, result, doc := none, body }

/-- The operations of a handle that return rows. -/
def rowMethods (q : Query) (parameters : List Argument) (mapper row : String) : List Function :=
  let f : Argument := { name := "f", hint := some mapper }
  [method "query_map" parameters [f] "_sqlite.Rows[T]"
      [onSelf "_query_map" [q.valueMapping, .argument "f"]],
   method "query_row" parameters [f] "T" [onSelf "_query_row" [q.valueMapping, .argument "f"]],
   method "query" parameters [] ("_sqlite.Rows[" ++ row ++ "]") [onSelf "_query" [q.valueMapping]]]

/-- The operations that both kinds of handle share. -/
def operations (q : Query) (parameters : List Argument) (mapper row : String) : Class :=
  { name := Role.statementOps.ident q.name
    bases := []
    doc := s!"Typed operations of ``{q.name}``."
    fields :=
      if q.hasOutputs then [("_outputs", .global (Role.outputs.ident q.name))] else []
    methods :=
      (if q.hasOutputs then rowMethods q parameters mapper row else []) ++
        [method "execute" parameters [] "int" [onSelf "_execute" [q.valueMapping]]] }

/-- A kind of handle. -/
def handle (q : Query) (role : Role) (base : String) : Class :=
  { name := role.ident q.name
    bases := [.global (Role.statementOps.ident q.name), .field library base]
    doc := s!"{base} handle for ``{q.name}``."
    fields := []
    methods := [] }

/-- The function that makes a handle. -/
def prepare (q : Query) (role handle : Role) : Function :=
  { name := role.ident q.name
    leading := [Backend.embedded.connection]
    parameters := []
    trailing := []
    result := handle.ident q.name
    doc := none
    body := [.result (.call (.global (handle.ident q.name))
      [.argument "conn", .global (Role.sql.ident q.name)])] }

/-- The function that runs the query for its effect. -/
def execute (q : Query) (parameters : List Argument) : Function :=
  { name := Role.execute.ident q.name
    leading := [Backend.embedded.connection]
    parameters
    trailing := []
    result := "int"
    doc := some s!"Run ``{q.name}`` and return the number of changed rows."
    body := [.result (.call (.field library "execute")
      [.argument "conn", .global (Role.sql.ident q.name), q.valueMapping])] }

/-- The function that returns the first row. -/
def queryRow (q : Query) (parameters : List Argument) (mapper : String) : Function :=
  { name := Role.queryRow.ident q.name
    leading := [Backend.embedded.connection]
    parameters
    trailing := [{ name := "f", hint := some mapper }]
    result := "T"
    doc := some s!"Return the first row of ``{q.name}`` mapped through ``f``."
    body := [.result (.call (.field library "query_row")
      [.argument "conn", .global (Role.sql.ident q.name), q.valueMapping,
       .global (Role.outputs.ident q.name), .argument "f"])] }

/-- The definitions behind the statement text and the output types. -/
def definitions (q : Query) : Except CodeError (List Definition) := do
  let parameters ← q.arguments
  let mapper ← q.mapperHint
  let row ← q.rowHint
  pure ([.classDef (operations q parameters mapper row),
      .classDef (handle q .statement "Statement"),
      .classDef (handle q .cachedStatement "CachedStatement"),
      .functionDef (prepare q .prepare .statement),
      .functionDef (prepare q .prepareCached .cachedStatement),
      .functionDef (execute q parameters)] ++
    if q.hasOutputs then [.functionDef (queryRow q parameters mapper)] else [])

end QueryBook.Embedded
