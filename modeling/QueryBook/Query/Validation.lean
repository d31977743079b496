import QueryBook.Query.Attributes
import QueryBook.Query.SupportedType

/-!
# Checking a book

A book makes sense when its query names differ and, in each query, the parameter names differ and
can be argument names of generated code, every type and every type inside it is supported, and
every test dependency is a query of the book for the same backend. The first violation is
reported: the query names of the whole book come before all else, then the queries in order, each
with its parameters from left to right, its types from the outside in, and its dependencies.
-/

namespace QueryBook

/-- The keywords of the generated language, which cannot be argument names. -/
def keywords : List String := [
  "False", "None", "True", "and", "as", "assert", "async", "await", "break", "class", "continue",
  "def", "del", "elif", "else", "except", "finally", "for", "from", "global", "if", "import", "in",
  "is", "lambda", "nonlocal", "not", "or", "pass", "raise", "return", "try", "while", "with",
  "yield"]

/-- The argument names that generated functions use beside the parameters. -/
def reservedNames : List String := ["conn", "client", "stmt", "cache", "f", "self", "cls"]

/-- Whether a parameter name is kept for generated code. -/
def isReserved (name : String) : Bool :=
  reservedNames.contains name || name.toList.head? == some '_'

namespace Book

/-- Refuses a query for a fault. -/
def refuse (q : Query) (fault : BookFault) : BookError :=
  { fault, query := some q.name, line := some q.line }

/-- The first query whose name was seen before. -/
def checkNames (seen : List String) : List Query → Except BookError Unit
  | [] => .ok ()
  | q :: rest =>
    if q.name ∈ seen then .error (refuse q (.duplicateName "query" q.name))
    else checkNames (q.name :: seen) rest

/-- The first parameter name that was seen before or cannot be an argument name. -/
def checkParameters (q : Query) (seen : List String) : List String → Except BookError Unit
  | [] => .ok ()
  | name :: rest =>
    if name ∈ seen then .error (refuse q (.duplicateName "parameter" name))
    else if name ∈ keywords then
      .error (refuse q (.invalidIdentifier name "parameter name is a Python keyword"))
    else if isReserved name then
      .error (refuse q (.invalidIdentifier name "parameter name is reserved for generated code"))
    else checkParameters q (name :: seen) rest

/-- The types of a query: of its parameters, then of its outputs. -/
def types (q : Query) : List TypeExpr := q.parameters.map Parameter.type ++ q.outputs

/-- The first type that is not supported. -/
def checkTypes (q : Query) : List TypeExpr → Except BookError Unit
  | [] => .ok ()
  | t :: rest =>
    if t.isSupported then checkTypes q rest
    else .error (refuse q (.unknownType t.text SupportedType.names))

/-- The first dependency that is no query of the book or is for the other backend. -/
def checkDependencies (b : Book) (q : Query) : List String → Except BookError Unit
  | [] => .ok ()
  | name :: rest =>
    match b.find? name with
    | none => .error (refuse q (.dependency name (.undeclared q.name)))
    | some target =>
      if target.backend = q.backend then checkDependencies b q rest
      else .error (refuse q (.dependency name (.otherBackend q.name q.backend target.backend)))

/-- The first violation of one query. -/
def checkQuery (b : Book) (q : Query) : Except BookError Unit := do
  checkParameters q [] q.parameterNames
  checkTypes q (TypeExpr.nodesOf (types q))
  checkDependencies b q q.dependencyNames

/-- The first violation of several queries. -/
def checkQueries (b : Book) : List Query → Except BookError Unit
  | [] => .ok ()
  | q :: rest => do
    checkQuery b q
    checkQueries b rest

/-- Checks a book. -/
def check (b : Book) : Except BookError Unit := do
  checkNames [] b.queries
  checkQueries b b.queries

end Book

end QueryBook
