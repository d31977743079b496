import QueryBook.Query.Error

/-!
# What attributes mean

The attributes of a declaration are gone through in order. Each either says something (a backend,
the named mode, that the query is tested and after which queries) or is refused on the spot; only
then is it asked whether exactly one backend was selected and whether the named mode goes with it.
Several `test` attributes, and several `with` options of one, add up in order.
-/

namespace QueryBook

/-- The attribute names that are known. -/
def Attribute.known : List String := Backend.tokens ++ ["named", "test"]

/-- What the attributes of one declaration say. -/
structure Meaning where
  backend : Backend
  named : Bool
  dependencies : Option (List String)
deriving DecidableEq, Repr

namespace Meaning

/-- What has been said so far. -/
structure Gathered where
  backends : List Backend := []
  named : Bool := false
  dependencies : Option (List String) := none
deriving DecidableEq, Repr

/-- Refuses an attribute or option of a query. -/
def refuse (query name : String) (allowed : List String) (line : Int) : BookError :=
  { fault := .unknownAttribute name allowed, query := some query, line := some line }

/-- The values of the options of a `test` attribute, which are all `with` options. -/
def withValues (query : String) : List AttributeOption → Except BookError (List String)
  | [] => .ok []
  | o :: rest =>
    if o.name = "with" then (withValues query rest).map (o.values ++ ·)
    else .error (refuse query ("test(" ++ o.name ++ ")") ["with"] o.line)

/-- What one attribute adds. -/
def gather (query : String) (g : Gathered) (a : Attribute) : Except BookError Gathered :=
  let withoutOptions (g : Gathered) : Except BookError Gathered :=
    if a.options.isSome then
      .error (refuse query (a.name ++ "(...)") Attribute.known a.line)
    else .ok g
  match Backend.ofToken? a.name with
  | some backend => withoutOptions { g with backends := g.backends ++ [backend] }
  | none =>
    if a.name = "named" then withoutOptions { g with named := true }
    else if a.name = "test" then
      (withValues query (a.options.getD [])).map fun values =>
        { g with dependencies := some (g.dependencies.getD [] ++ values) }
    else .error (refuse query a.name Attribute.known a.line)

/-- What all attributes add up to. -/
def gatherAll (query : String) (g : Gathered) : List Attribute → Except BookError Gathered
  | [] => .ok g
  | a :: rest => (gather query g a).bind fun g => gatherAll query g rest

/-- Asks for one backend, and for a network one in the named mode. -/
def ofGathered (query : String) (line : Int) (g : Gathered) : Except BookError Meaning :=
  let wrong (fault : BackendFault) : Except BookError Meaning :=
    .error { fault := .backend fault, query := some query, line := some line }
  match g.backends with
  | [] => wrong (.missing query)
  | [backend] =>
    if g.named ∧ backend ≠ .network then wrong (.namedUnsupported query)
    else .ok { backend, named := g.named, dependencies := g.dependencies }
  | backends => wrong (.repeated query backends)

/-- The meaning of the attributes of the query declared on `line`. -/
def ofAttributes (query : String) (line : Int) (attributes : List Attribute) :
    Except BookError Meaning :=
  (gatherAll query {} attributes).bind (ofGathered query line)

end Meaning

namespace Query

/-- The query that a declaration declares. -/
def ofDeclaration (d : Declaration) : Except BookError Query :=
  (Meaning.ofAttributes d.name d.line d.attributes).map fun m =>
    { name := d.name, backend := m.backend, named := m.named, parameters := d.parameters,
      outputs := d.outputs, statement := d.statement, dependencies := m.dependencies,
      line := d.line }

end Query

end QueryBook
