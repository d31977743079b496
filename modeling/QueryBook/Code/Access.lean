import QueryBook.Code.Config
import QueryBook.Code.Error
import QueryBook.Code.Role
import QueryBook.Code.TypeHint
import QueryBook.Journal
import QueryBook.Statement.Placeholder

/-!
# Access functions

The parts that the access functions of all backends share: the text of the statement, the hints of
parameters and rows, and the names of things outside the module.
-/

namespace QueryBook

namespace Query

/-- The name of the column type library in generated modules. -/
def typeLibrary : String := "_t"

/-- An unknown type name as an error. -/
def knownTypes {α : Type} (x : Except String α) : Except CodeError α := x.mapError .unknownTypeName

/-- The parameters as arguments. -/
def argumentsOf : List Parameter → Except String (List Argument)
  | [] => pure []
  | p :: ps => do
    let hint ← p.type.hint false
    let rest ← argumentsOf ps
    pure ({ name := p.name, hint := some hint } :: rest)

/-- The parameters as arguments. -/
def arguments (q : Query) : Except CodeError (List Argument) :=
  knownTypes (argumentsOf q.parameters)

/-- The parameters as they follow other arguments in a function header. -/
def argumentText (q : Query) : Except CodeError String :=
  q.arguments.map fun as => String.join (as.map fun a => ", " ++ a.text)

/-- The values of the parameters, in order. -/
def valueTuple (q : Query) : Expr := .tuple (q.parameterNames.map Expr.argument)

/-- The values of the parameters, by name. -/
def valueMapping (q : Query) : Expr := .mapping q.parameterNames

/-- The hints of the output columns. -/
def outputHints (q : Query) : Except CodeError (List String) :=
  knownTypes (TypeExpr.hints true q.outputs)

/-- The hint of a decoded row. -/
def rowHint (q : Query) : Except CodeError String :=
  q.outputHints.map fun hs => "tuple[" ++ String.intercalate ", " hs ++ "]"

/-- The hint of a function that maps a decoded row. -/
def mapperHint (q : Query) : Except CodeError String :=
  q.outputHints.map fun hs => "Callable[[" ++ String.intercalate ", " hs ++ "], T]"

/-- The column types of the output. -/
def outputTuple (q : Query) : Except CodeError Expr :=
  knownTypes ((TypeExpr.columns typeLibrary q.outputs).map Expr.tuple)

/-- A value for each parameter, drawn from the byte source called `source`. -/
def drawnArguments (q : Query) (source : String) : Except CodeError (List Expr) :=
  knownTypes ((TypeExpr.columns typeLibrary (q.parameters.map Parameter.type)).map fun types =>
    types.map fun t => .call (.field (.argument source) "arbitrary") [t])

end Query

namespace Backend

/-- The name of the connection argument. -/
def connectionName : Backend → String
  | embedded => "conn"
  | network => "client"

/-- The hint of the connection argument. -/
def connectionHint : Backend → String
  | embedded => "sqlite3.Connection"
  | network => "GenericClient"

/-- The connection argument. -/
def connection (g : Backend) : Argument :=
  { name := g.connectionName, hint := some g.connectionHint }

/-- The errors that test setup passes over. An embedded setup runs every statement for its effect,
also one that returns rows. -/
def toleratedErrors : Backend → List ErrorClass
  | embedded => [.returnedRows]
  | network => []

/-- The imports that generated code needs. -/
def imports (package : String) (withTests : Bool) : Backend → List String
  | embedded =>
    ["import sqlite3", s!"from {package} import sqlite as _sqlite"] ++
      if withTests then ["from sqlfn.errors import ExecuteReturnedRowsError"] else []
  | network =>
    (if withTests then ["import psycopg"] else []) ++
      [s!"from {package} import results as _res", s!"from {package}.cache import Cache",
       s!"from {package}.client import GenericClient, PreparedStatement"] ++
      if withTests then [s!"from {package} import postgres as _pg"] else []

/-- The statement text that generated code carries. A network statement with named placeholders has
them replaced, which is reported. -/
def statementText (config : Config) (g : Backend) (q : Query) : Journaled CodeError String :=
  match g, q.named with
  | .network, true => do
    let text ← .lift ((Placeholder.toPositions config.strictPlaceholders (some q.name)
      q.parameterNames q.statement).mapError CodeError.refused)
    .log .debug "sqlfn.compile.postgres" s!"rewrote named placeholders of {q.name}: {text}"
    pure text
  | _, _ => pure q.statement

end Backend

end QueryBook
