import QueryBook.Code.Section
import QueryBook.Code.Setup
import QueryBook.Query.Read
import QueryBook.Text.Blank

/-!
# Generated modules

A module is made from a book: a docstring and the imports, a section for each query in order, and
the test scaffolding. The imports come in three groups, those of the language, those of others and
those of the runtime package, each group followed by an empty line.
-/

namespace QueryBook

/-- A generated module. -/
structure Module where
  source : String
  sourceName : String
  /-- The queries it has a section for, in order. -/
  queries : List String
  /-- The entry points of its tests, in order. -/
  entryPoints : List String
  /-- The backends of its queries. -/
  backends : List Backend
  /-- What it defines, in order. -/
  definitions : List Definition
deriving Repr

namespace Module

/-- Which backend generates the code for the queries of each backend, and for which backends. -/
abbrev Registry := List (Backend × Backend)

/-- Each backend generates its own code. -/
def Registry.standard : Registry := [(.embedded, .embedded), (.network, .network)]

/-- The backend that generates the code for the queries of a backend. -/
def Registry.find? (r : Registry) (k : Backend) : Option Backend := r.lookup k

/-- The generators of some backends, or the first backend that has none. -/
def generatorsFor (r : Registry) : List Backend → Except CodeError (List (Backend × Backend))
  | [] => .ok []
  | k :: rest => do
    match r.find? k with
    | none => throw (.unsupportedBackend k (r.map Prod.fst))
    | some g => pure ((k, g) :: (← generatorsFor r rest))

/-- The docstring. -/
def docstring (config : Config) (sourceName : String) : String :=
  let source := String.ofList (sourceName.toList.map fun c => if c = '\\' then '/' else c)
  let first := s!"Generated by sqlfn from {source}. Do not edit."
  if config.moduleDocstring.isEmpty then first
  else
    let more := Text.trim config.moduleDocstring
    s!"{first}\n\n{more}\n"

/-- The imports by group. -/
structure Imports where
  language : List String
  others : List String
  package : List String

/-- Sorts an import into its group. -/
def Imports.add (package : String) (i : Imports) (line : String) : Imports :=
  if line.startsWith "from sqlfn" || line.startsWith ("from " ++ package) then
    { i with package := i.package ++ [line] }
  else if line = "import sqlite3" then { i with language := i.language ++ [line] }
  else { i with others := i.others ++ [line] }

/-- The imports of a module. -/
def imports (config : Config) (generators : List Backend) (withTests : Bool) : Imports :=
  let package := config.runtimePackage
  let start : Imports :=
    { language := ["import logging"]
      others := []
      package := s!"from {package} import types as _t" ::
        if withTests then [s!"from {package}.arbitrary import RAW_TEST_DATA, Unstructured"]
        else [] }
  let i := (generators.flatMap (·.imports package withTests)).foldl (Imports.add package) start
  { i with language := i.language ++
      ["from collections.abc import Callable, Sequence",
       "from typing import Any, Optional, TypeVar"] }

/-- A group of imports and the empty line behind it. -/
def groupItems (lines : List String) : List Item :=
  if lines.isEmpty then [] else [.lines lines, .blank 1]

/-- What writes the head of a module. -/
def headerItems (config : Config) (sourceName : String) (generators : List Backend)
    (withTests : Bool) : List Item :=
  let i := imports config generators withTests
  [.docstring (docstring config sourceName), .line "from __future__ import annotations",
    .blank 1] ++
    groupItems i.language ++ groupItems i.others ++ groupItems i.package ++
    [.line "_log = logging.getLogger(__name__)", .blank 1, .line "T = TypeVar(\"T\")"]

/-- The sections of the queries. -/
def sections (config : Config) (generators : List (Backend × Backend)) :
    List Query → Journaled CodeError (List (String × List Definition))
  | [] => pure []
  | q :: rest => do
    let g ← .lift ((generators.lookup q.backend).elim (.error (.missingGenerator q.backend)) .ok)
    let definitions ← g.definitions config q
    let others ← sections config generators rest
    pure ((q.name, definitions) :: others)

/-- Whether the module of a book has test scaffolding. -/
def withTests (config : Config) (b : Book) : Bool := config.emitTests && !b.setupTargets.isEmpty

/-- The test scaffolding, if there is to be any. -/
def scaffolding (config : Config) (generators : List (Backend × Backend)) (b : Book) : Written :=
  if withTests config b then Setup.write (generators.lookup ·) b else .just []

/-- The names of the entry points, or what stopped the writing of the scaffolding. -/
def entryPointsOf (config : Config) (generators : List (Backend × Backend)) (b : Book) :
    Journaled CodeError (List String) :=
  if withTests config b then Setup.outcome (generators.lookup ·) b else pure []

/-- The module made of its head, its sections and its scaffolding. -/
def assemble (config : Config) (generators : List (Backend × Backend)) (b : Book)
    (sections : List (String × List Definition)) (entryPoints : List String) : Module :=
  let header := headerItems config b.sourceName (generators.map Prod.snd) (withTests config b)
  let setup := scaffolding config generators b
  let items := header ++ sections.flatMap (fun s => sectionItems s.1 s.2) ++ setup.items
  { source := (Writer.empty.writeAll items).render
    sourceName := b.sourceName
    queries := b.names
    entryPoints
    backends := b.backends
    definitions := sections.flatMap Prod.snd ++ setup.definitions }

/-- The report on the module. -/
def summary (b : Book) : String :=
  let count := b.queries.length
  let ending := if count = 1 then "y" else "ies"
  s!"compiled {count} quer{ending} from {b.sourceName}"

/-- Generates the module of a book. -/
def build (config : Config) (registry : Registry) (b : Book) : Journaled CodeError Module := do
  let generators ← .lift (generatorsFor registry b.backends)
  let sections ← sections config generators b.queries
  let entryPoints ← entryPointsOf config generators b
  .log .info "sqlfn.compile.builder" (summary b)
  pure (assemble config generators b sections entryPoints)

/-- Why a text gives no module. -/
inductive Error where
  | unreadable (e : ReadError)
  | code (e : CodeError)
deriving Repr

/-- The message of either error. -/
def Error.message : Error → String
  | unreadable e => e.message
  | code e => e.message

/-- Generates the module of a text, of which the book is checked if asked for. -/
def ofText (config : Config) (registry : Registry) (check : Bool) (text sourceName : String) :
    Journaled Error Module :=
  match if check then Book.read text sourceName else Book.parse text sourceName with
  | .error e => .lift (.error (.unreadable e))
  | .ok book =>
    let m := build config registry book
    { journal := m.journal, outcome := m.outcome.mapError .code }

/-- Generates the module of a text. -/
def compile (config : Config) (text sourceName : String) : Journaled Error Module :=
  ofText config .standard true text sourceName

end Module

end QueryBook
