import QueryBook.Declaration.SyntaxError
import QueryBook.Query.Basic
import QueryBook.Value

/-!
# Why a book is refused

A book that follows the grammar may still make no sense. Each cause has a code for programs, a
sentence for readers and the details behind the sentence; the error adds the query and the line it
concerns, and the line ends the message.
-/

namespace QueryBook

/-- What is wrong with the backend of a query. -/
inductive BackendFault where
  /-- No attribute selects a backend. -/
  | missing (query : String)
  /-- Several attributes select one. -/
  | repeated (query : String) (backends : List Backend)
  /-- Named parameters on a backend that has none. -/
  | namedUnsupported (query : String)
deriving DecidableEq, Repr

/-- The sentence of a backend fault. -/
def BackendFault.sentence : BackendFault → String
  | missing query =>
    let supported := Text.nameList Backend.tokens
    s!"Query '{query}' has no backend kind. Supported: {supported}."
  | repeated query backends =>
    let listed := Text.nameList (backends.map Backend.token)
    s!"Query '{query}' declares more than one backend kind: {listed}."
  | namedUnsupported query =>
    let only := Backend.network.token
    s!"Attribute 'named' is only supported for the '{only}' backend (query '{query}')."

/-- What is wrong with a test dependency. -/
inductive DependencyFault where
  /-- No query has this name. -/
  | undeclared (query : String)
  /-- The query it names is for the other backend. -/
  | otherBackend (query : String) (own other : Backend)
deriving DecidableEq, Repr

/-- The sentence of a fault of the dependency `name`. -/
def DependencyFault.sentence (name : String) : DependencyFault → String
  | undeclared query => s!"Query '{query}' depends on undeclared query '{name}'."
  | otherBackend query own other =>
    let mine := own.token
    let theirs := other.token
    s!"Query '{query}' ({mine}) depends on '{name}' ({theirs}); " ++
      "setup dependencies must share a backend."

/-- Why a book is refused. -/
inductive BookFault where
  | unknownAttribute (name : String) (allowed : List String)
  | backend (fault : BackendFault)
  /-- A name of this kind is declared twice. -/
  | duplicateName (kind name : String)
  | unknownType (type : String) (supported : List String)
  | dependency (name : String) (fault : DependencyFault)
  | invalidIdentifier (name reason : String)
  /-- A placeholder of a named statement is no parameter. -/
  | unmatchedPlaceholder (placeholder : String) (parameters : List String)
deriving DecidableEq, Repr

namespace BookFault

/-- The class of errors for the cause. -/
def className : BookFault → String
  | unknownAttribute _ _ => "UnknownAttributeError"
  | backend _ => "BackendKindError"
  | duplicateName _ _ => "DuplicateNameError"
  | unknownType _ _ => "UnknownTypeError"
  | dependency _ _ => "UnknownDependencyError"
  | invalidIdentifier _ _ => "InvalidIdentifierError"
  | unmatchedPlaceholder _ _ => "UnmatchedPlaceholderError"

/-- The code of the cause. -/
def code : BookFault → String
  | unknownAttribute _ _ => "UNKNOWN_ATTRIBUTE"
  | backend _ => "BACKEND_KIND"
  | duplicateName _ _ => "DUPLICATE_NAME"
  | unknownType _ _ => "UNKNOWN_TYPE"
  | dependency _ _ => "UNKNOWN_DEPENDENCY"
  | invalidIdentifier _ _ => "INVALID_IDENTIFIER"
  | unmatchedPlaceholder _ _ => "UNMATCHED_PLACEHOLDER"

/-- The cause as a sentence. -/
def sentence : BookFault → String
  | unknownAttribute name allowed =>
    let listed := Text.nameList allowed
    s!"Unknown attribute '{name}'. Supported: {listed}."
  | backend fault => fault.sentence
  | duplicateName kind name => s!"Duplicate {kind} name '{name}'."
  | unknownType type supported =>
    let listed := Text.nameList supported
    s!"Unknown type '{type}'. Supported: {listed}."
  | dependency name fault => fault.sentence name
  | invalidIdentifier name reason => s!"'{name}' cannot be used here: {reason}."
  | unmatchedPlaceholder placeholder parameters =>
    let listed := Text.nameList parameters
    s!"Placeholder ':{placeholder}' does not match any declared parameter {listed}."

/-- A list of names as a detail. -/
def namesDetail (names : List String) : Value := .row (names.map Value.text)

/-- The details behind the sentence, by name. -/
def details : BookFault → List (String × Value)
  | unknownAttribute name allowed =>
    [("attribute", .text name), ("allowed", namesDetail allowed)]
  | backend _ => []
  | duplicateName kind name => [("kind", .text kind), ("name", .text name)]
  | unknownType type supported => [("type", .text type), ("supported", namesDetail supported)]
  | dependency name _ => [("dependency", .text name)]
  | invalidIdentifier name _ => [("name", .text name)]
  | unmatchedPlaceholder placeholder parameters =>
    [("placeholder", .text placeholder), ("params", namesDetail parameters)]

end BookFault

/-- A refused book: the cause, the query and the line it concerns. -/
structure BookError where
  fault : BookFault
  query : Option String
  line : Option Int
deriving DecidableEq, Repr

/-- A refusal as it is reported. -/
structure Refusal where
  className : String
  code : String
  sentence : String
  details : List (String × Value)
  query : Option String
  line : Option Int
deriving Repr

/-- The message: the sentence and, if known, the line. -/
def Refusal.message (r : Refusal) : String := placed r.sentence r.line none

namespace BookError

/-- How an error is reported. -/
def refusal (e : BookError) : Refusal :=
  { className := e.fault.className, code := e.fault.code, sentence := e.fault.sentence
    details := e.fault.details, query := e.query, line := e.line }

/-- The message of an error. -/
def message (e : BookError) : String := e.refusal.message

end BookError

end QueryBook
