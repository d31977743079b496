import QueryBook.Code.Definition
import QueryBook.Column.Source
import QueryBook.Session.Caches
import QueryBook.Session.Embedded
import QueryBook.Session.Network

/-!
# Objects of generated code

What the names and expressions of a generated module stand for while it runs. Values and what is
made of them stand for themselves. Things that change are kept in a memory and referred to by
number: byte sources, sets of names and caches, beside the databases. A computation of generated
code passes the memory on, and like a session it may fail and keeps what happened before.
-/

namespace QueryBook

/-- A library that generated code imports. -/
inductive Library where
  /-- The column types. -/
  | types
  /-- What is expected of results. -/
  | results
  /-- Access to an embedded database. -/
  | embedded
  /-- The driver of an embedded database. -/
  | driver
  /-- Access to a database server. -/
  | server
  /-- The log of the module. -/
  | log
deriving DecidableEq, Repr

/-- A function that generated code calls by name without defining it. -/
inductive Builtin where
  /-- Makes a byte source. -/
  | byteSource
  /-- Makes an empty set of names. -/
  | nameSet
deriving DecidableEq, Repr

/-- What an expression of generated code stands for. -/
inductive Object where
  | value (v : Value)
  /-- An error at hand. -/
  | failure (e : Failure)
  | column (t : ColumnType)
  | mapper (f : Mapper)
  | tuple (items : List Object)
  | list (items : List Object)
  | mapping (entries : List (String × Object))
  | connection (backend : Backend) (id : Nat)
  | cursor (id : Nat)
  | prepared (p : Prepared)
  | cache (number : Int)
  /-- A byte source of the memory. -/
  | source (number : Nat)
  /-- A set of names of the memory. -/
  | names (number : Nat)
  /-- A handle, made by a class of the module. -/
  | handle (c : Class) (h : Handle)
  | rows (r : Rows)
  | function (f : Function)
  | classObject (c : Class)
  | library (l : Library)
  | builtin (b : Builtin)
  /-- An operation of an object, to be called. -/
  | method (of : Object) (name : String)

/-- What generated code works on. -/
structure Memory where
  world : World
  /-- The caches by number. -/
  shelf : CacheShelf := .empty
  /-- The byte sources made so far. -/
  sources : List ByteSource := []
  /-- The sets of names made so far. -/
  nameSets : List (List String) := []

/-- A computation of generated code. -/
abbrev Run := EStateM Failure Memory

namespace Failure

/-- An operation on something that it is not made for. What the language says about it is left
open. -/
def misuse : Failure := .raised .language "TypeError" []

/-- An operation that an object does not have. -/
def noOperation (className operation : String) : Failure :=
  language "AttributeError" s!"'{className}' object has no attribute '{operation}'"

/-- A name that nothing is known by. -/
def undefined (name : String) : Failure := language "NameError" s!"name '{name}' is not defined"

/-- Calls are nested too deep. -/
def tooDeep : Failure := language "RecursionError" "maximum recursion depth exceeded"

end Failure

namespace Run

variable {α : Type}

/-- A session on the databases alone. -/
def lift (x : Session α) : Run α := fun m =>
  match x m.world with
  | .ok a w => .ok a { m with world := w }
  | .error e w => .error e { m with world := w }

/-- Something that has to be there. -/
def need : Option α → Run α
  | some a => pure a
  | none => throw .misuse

/-- Runs `cleanup` after `body`, also when `body` fails. -/
def always (body : Run α) (cleanup : Run Unit) : Run α := fun m =>
  match body m with
  | .ok a m =>
    match cleanup m with
    | .ok _ m => .ok a m
    | .error e m => .error e m
  | .error e m =>
    match cleanup m with
    | .ok _ m => .error e m
    | .error e' m => .error e' m

/-- What a computation does to the databases when it starts with nothing else in memory. -/
def onWorld (x : Run α) : Session Unit := fun w =>
  match x { world := w } with
  | .ok _ m => .ok () m.world
  | .error e m => .error e m.world

end Run

namespace Object

/-- Nothing. -/
def null : Object := .value .null

/-- A value. -/
def value? : Object → Option Value
  | value v => some v
  | _ => none

/-- A text. -/
def text? : Object → Option String
  | value (.text s) => some s
  | _ => none

/-- A column type. -/
def column? : Object → Option ColumnType
  | column t => some t
  | _ => none

/-- A tuple of values. -/
def values? : Object → Option (List Value)
  | tuple items => items.mapM value?
  | _ => none

/-- A tuple of column types. -/
def columns? : Object → Option (List ColumnType)
  | tuple items => items.mapM column?
  | _ => none

/-- A mapping from names to values. -/
def named? : Object → Option (List (String × Value))
  | mapping entries => entries.mapM fun e => e.2.value?.map (e.1, ·)
  | _ => none

/-- A list. -/
def list? : Object → Option (List Object)
  | list items => some items
  | _ => none

/-- What can be run on a server. -/
def runnable? : Object → Option Runnable
  | value (.text s) => some (.plain s)
  | prepared p => some (.prepared p)
  | _ => none

/-- The class of an object, as messages name it. -/
def className : Object → String
  | value v => v.kind
  | failure (.raised _ name _) => name
  | failure (.library _) => "SqlFnError"
  | column _ => "ColumnType"
  | mapper _ | function _ => "function"
  | tuple _ => "tuple"
  | list _ => "list"
  | mapping _ => "dict"
  | connection .embedded _ => "Connection"
  | connection .network _ => "PgClient"
  | cursor _ => "Cursor"
  | prepared _ => "PreparedStatement"
  | cache _ => "Cache"
  | source _ => "Unstructured"
  | names _ => "set"
  | handle c _ => c.name
  | rows _ => "Rows"
  | classObject _ | builtin _ => "type"
  | library _ => "module"
  | method _ _ => "method"

/-- The object as a text that holds it shows it. -/
def shown? : Object → Option String
  | value v => some v.plain
  | failure e => some e.message
  | _ => none

end Object

end QueryBook
