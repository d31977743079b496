import QueryBook.Code.Access

/-!
# Access to a database server

Every function takes a client first, which may be a connection or an open transaction. A query can
be prepared, directly or through a cache, and run for its effect, either as it stands or prepared.
A query with outputs also has its rows decoded: all of them, exactly one, or at most one, again
either way. Parameters are bound by position.
-/

namespace QueryBook.Network

/-- The client argument. -/
def client : Expr := .argument "client"

/-- The prepared statement argument. -/
def stmt : Argument := { name := "stmt", hint := some "PreparedStatement" }

/-- A function on a client. -/
def function (q : Query) (role : Role) (more parameters : List Argument) (result : String)
    (doc : Option String) (body : List BodyLine) : Function :=
  { name := role.ident q.name, leading := Backend.network.connection :: more, parameters,
    trailing := [], result, doc, body }

/-- The statement text. -/
def sql (q : Query) : Expr := .global (Role.sql.ident q.name)

/-- The function that decodes a row. -/
def fromRow (q : Query) (row : String) : Function :=
  { name := Role.fromRow.ident q.name
    leading := [{ name := "row", hint := some "Sequence[Any]" }]
    parameters := []
    trailing := []
    result := row
    doc := some s!"Decode one result row of ``{q.name}``."
    body := [.result (.call (.field (.global "_t") "decode_row")
      [.argument "row", .global (Role.outputs.ident q.name)])] }

/-- The function that prepares the query. -/
def prepare (q : Query) : Function :=
  function q .prepare [] [] "PreparedStatement" none
    [.result (.call (.field client "prepare") [sql q])]

/-- The function that prepares the query through a cache. -/
def prepareCached (q : Query) : Function :=
  function q .prepareCached [{ name := "cache", hint := some "Cache" }] [] "PreparedStatement" none
    [.result (.call (.field (.argument "cache") "prepare") [sql q, client])]

/-- The function that runs the query for its effect. -/
def execute (q : Query) (parameters : List Argument) : Function :=
  function q .execute [] parameters "int"
    (some s!"Run ``{q.name}`` and return the number of affected rows.")
    [.result (.call (.field client "execute") [sql q, q.valueTuple])]

/-- The same with the query prepared. -/
def executePrepared (q : Query) (parameters : List Argument) : Function :=
  function q .executePrepared [stmt] parameters "int" none
    [.result (.call (.field client "execute") [.argument "stmt", q.valueTuple])]

/-- Whether a query is run as it stands or prepared. -/
inductive Form where
  | plain | prepared
deriving DecidableEq, Repr

/-- The arguments a form adds. -/
def Form.arguments : Form → List Argument
  | plain => []
  | prepared => [stmt]

/-- What is run. -/
def Form.target (q : Query) : Form → Expr
  | plain => sql q
  | prepared => .argument "stmt"

/-- The statement text that errors mention. -/
def Form.mentioned (q : Query) : Form → Expr
  | plain => sql q
  | prepared => .field (.argument "stmt") "sql"

/-- The three functions of a form that return rows. -/
def queueFamily (q : Query) (parameters : List Argument) (row : String) (many one opt : Role)
    (form : Form) : List Function :=
  let fromRow : Expr := .global (Role.fromRow.ident q.name)
  let rows : Expr := .call (.field client "query") [form.target q, q.valueTuple]
  let expect (contract : String) : Expr :=
    .call (.field (.global "_res") contract) [rows, form.mentioned q]
  [function q many form.arguments parameters ("list[" ++ row ++ "]") none
      [.result (.each fromRow rows)],
   function q one form.arguments parameters row none
      [.result (.call fromRow [expect "expect_one"])],
   function q opt form.arguments parameters ("Optional[" ++ row ++ "]") none
      [.assign "row" (expect "expect_opt"),
       .result (.unlessNone "row" (.call fromRow [.argument "row"]))]]

/-- The functions that return rows. -/
def rowFunctions (q : Query) (parameters : List Argument) (row : String) : List Function :=
  queueFamily q parameters row .queue .queueOne .queueOpt .plain ++
    queueFamily q parameters row .queuePrepared .queueOnePrepared .queueOptPrepared .prepared

/-- The definitions behind the statement text and the output types. -/
def definitions (q : Query) : Except CodeError (List Definition) := do
  let parameters ← q.arguments
  let row ← q.rowHint
  let functions :=
    (if q.hasOutputs then [fromRow q row] else []) ++
      [prepare q, prepareCached q, execute q parameters, executePrepared q parameters] ++
      if q.hasOutputs then rowFunctions q parameters row else []
  pure (functions.map Definition.functionDef)

end QueryBook.Network
