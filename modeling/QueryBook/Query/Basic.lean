import QueryBook.Declaration.Basic

/-!
# Queries

What a declaration means: the backend it is for, whether its statement names its parameters, and
which queries must have run before it can be tested. A book is the queries of one source, in
order.
-/

namespace QueryBook

/-- The kind of database a query is for. -/
inductive Backend where
  /-- A database file opened by the program itself. -/
  | embedded
  /-- A database server. -/
  | network
deriving DecidableEq, Repr

namespace Backend

/-- The attribute that selects the backend. -/
def token : Backend → String
  | embedded => "sqlite"
  | network => "postgres"

/-- Both backends, in the order in which they are listed. -/
def all : List Backend := [embedded, network]

/-- The backend selected by an attribute name. -/
def ofToken? (token : String) : Option Backend := all.find? (·.token == token)

/-- The attribute names that select a backend. -/
def tokens : List String := all.map Backend.token

end Backend

/-- A query. -/
structure Query where
  name : String
  backend : Backend
  /-- The statement of a network query writes its parameters as `:name`. -/
  named : Bool
  parameters : List Parameter
  /-- The types of the output columns; none for a statement without rows. -/
  outputs : List TypeExpr
  statement : String
  /-- `none` for a query that is not tested, else the queries that must run first. -/
  dependencies : Option (List String)
  /-- The line of the declaration. -/
  line : Nat
deriving DecidableEq, Repr

namespace Query

/-- The parameter names, in order. -/
def parameterNames (q : Query) : List String := q.parameters.map Parameter.name

/-- Whether the query returns rows. -/
def hasOutputs (q : Query) : Bool := !q.outputs.isEmpty

/-- Whether the query is tested. -/
def isTested (q : Query) : Bool := q.dependencies.isSome

/-- The queries that must run before a test of this one. -/
def dependencyNames (q : Query) : List String := q.dependencies.getD []

end Query

/-- The queries of one source. -/
structure Book where
  queries : List Query
  /-- Where the text came from. -/
  sourceName : String
deriving DecidableEq, Repr

namespace Book

/-- The first query of this name. -/
def find? (b : Book) (name : String) : Option Query := b.queries.find? (·.name == name)

/-- The query names, in order. -/
def names (b : Book) : List String := b.queries.map Query.name

/-- The queries for one backend, in order. -/
def forBackend (b : Book) (backend : Backend) : List Query :=
  b.queries.filter (·.backend == backend)

/-- The backends that some query is for. -/
def backends (b : Book) : List Backend := Backend.all.filter fun k => !(b.forBackend k).isEmpty

/-- The tested queries, in order. -/
def tested (b : Book) : List Query := b.queries.filter Query.isTested

end Book

end QueryBook
