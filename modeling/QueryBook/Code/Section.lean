import QueryBook.Code.Embedded
import QueryBook.Code.Network

/-!
# The section of a query

A generated module has a section for each query: a banner with its name, the statement text, the
column types of its outputs if it has any, and the access functions of its backend.
-/

namespace QueryBook

namespace Backend

/-- The access functions that a backend generates for a query. -/
def accessDefinitions (g : Backend) (q : Query) : Except CodeError (List Definition) :=
  match g with
  | .embedded => Embedded.definitions q
  | .network => Network.definitions q

/-- All definitions that a backend generates for a query. -/
def definitions (config : Config) (g : Backend) (q : Query) :
    Journaled CodeError (List Definition) := do
  .log .debug "sqlfn.compile.base" s!"emitting {g.token} query {q.name}"
  let text ← g.statementText config q
  let constant := Definition.constant (Role.sql.ident q.name) (.literal text)
  let outputs ← .lift q.outputTuple
  let outputConstant :=
    if q.hasOutputs then [Definition.constant (Role.outputs.ident q.name) outputs] else []
  let access ← .lift (g.accessDefinitions q)
  pure (constant :: outputConstant ++ access)

end Backend

/-- What writes the section of a query. -/
def sectionItems (name : String) (definitions : List Definition) : List Item :=
  .banner name :: definitions.flatMap Definition.items

end QueryBook
