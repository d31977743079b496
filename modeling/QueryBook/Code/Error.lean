import QueryBook.Query.Error

/-!
# Why no module is generated

A checked book can only be refused for a placeholder that is no parameter. The other causes
concern books that were not checked, or a backend that nothing generates code for.
-/

namespace QueryBook

/-- Why no module is generated. -/
inductive CodeError where
  /-- The book is refused after all. -/
  | refused (e : BookError)
  /-- A type name that is not supported. -/
  | unknownTypeName (name : String)
  /-- No generator is registered for a backend of the book. -/
  | unsupportedBackend (backend : Backend) (registered : List Backend)
  /-- Nothing was prepared to generate code for a backend. -/
  | missingGenerator (backend : Backend)
  /-- No generator is at hand for the test scaffolding of a query. -/
  | noGenerator (backend : Backend) (query : String)
  /-- A query depends on one that is not there. -/
  | unknownDependency (name query : String)
deriving Repr

namespace CodeError

/-- The backend names in alphabetical order. -/
def sortedTokens (backends : List Backend) : List String :=
  (backends.map Backend.token).mergeSort (fun a b => decide (a ≤ b))

/-- How messages show a backend that was looked up. -/
def label : Backend → String
  | .embedded => "BackendKind.EMBEDDED"
  | .network => "BackendKind.NETWORK"

/-- The message of an error. -/
def message : CodeError → String
  | refused e => e.message
  | unknownTypeName name => Text.literal name
  | unsupportedBackend backend registered =>
    let kind := backend.token
    let listed := Text.nameList (sortedTokens registered)
    s!"Unsupported backend kind: '{kind}'. Registered: {listed}."
  | missingGenerator backend =>
    let shown := label backend
    let kind := Text.literal backend.token
    s!"<{shown}: {kind}>"
  | noGenerator backend _ =>
    let kind := backend.token
    s!"No generator for backend '{kind}'."
  | unknownDependency name _ => s!"Unknown test dependency '{name}'."

/-- The query an error concerns. -/
def query : CodeError → Option String
  | refused e => e.query
  | unknownTypeName _ => none
  | unsupportedBackend _ _ => none
  | missingGenerator _ => none
  | noGenerator _ query => some query
  | unknownDependency _ query => some query

end CodeError

end QueryBook
