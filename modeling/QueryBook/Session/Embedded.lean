import QueryBook.Column.Type
import QueryBook.Session.World

/-!
# Running statements on an embedded database

A statement is run for its effect or for its rows. A handle keeps a statement at hand: one kind
owns a cursor and sends everything over it, the other makes a new cursor for each call. The rows
of a handle are fetched one at a time and each is decoded and mapped on its own, so that a row
that cannot be decoded does not stand in the way of the next; once the end has been seen, nothing
is fetched again.
-/

namespace QueryBook

/-- What is made of the columns of a row. -/
abbrev Mapper := List Value → Except Failure Value

/-- All columns as they are. -/
def Mapper.columns : Mapper := fun values => .ok (.row values)

namespace Session

/-- Sends a statement over a cursor with arguments bound by name. -/
def submitNamed (id : Nat) (statement : String) (values : List (String × Value)) : Session Unit :=
  submit id .embedded { text := statement, arguments := .byName values }

/-- The number of rows changed by the last statement, which must not have returned rows. -/
def effect (id : Nat) (statement : String) : Session Int := do
  if (← cursor id).hasResult then throw (.rows (.executeReturnedRows (some statement)))
  changedRows id

/-- Runs a statement for its effect. -/
def executeFile (connection : Nat) (statement : String) (values : List (String × Value)) :
    Session Int := do
  let id ← newCursor connection
  submitNamed id statement values
  effect id statement

/-- Runs a statement and fetches its first row. -/
def fetchRowFile (connection : Nat) (statement : String) (values : List (String × Value)) :
    Session (List Value) := do
  let id ← newCursor connection
  submitNamed id statement values
  match ← always (fetchOne id) (closeCursor id) with
  | none => throw (.rows (.noRows (some statement)))
  | some row => return row

/-- Runs a statement and maps its first row. -/
def firstRowFile (connection : Nat) (statement : String) (values : List (String × Value))
    (types : List ColumnType) (f : Mapper) : Session Value := do
  let row ← fetchRowFile connection statement values
  ofExcept ((ColumnType.decodeRow types row).bind f)

end Session

/-- Rows that are fetched one at a time. -/
structure Rows where
  cursor : Nat
  types : List ColumnType
  mapper : Mapper
  /-- Whether the end has been seen. -/
  done : Bool := false

namespace Rows

/-- The next row, decoded and mapped, or nothing at the end; and the rows that are left. -/
def next (r : Rows) : Session (Option Value × Rows) :=
  if r.done then pure (none, r)
  else do
    match ← Session.fetchOne r.cursor with
    | none => return (none, { r with done := true })
    | some row =>
      let v ← Session.ofExcept ((ColumnType.decodeRow r.types row).bind r.mapper)
      return (some v, r)

/-- The next row for a loop over the rows, which is over also when mapping a row says so. -/
def advance (r : Rows) : Session (Option Value × Rows) :=
  tryCatch r.next fun e => if e.endsIteration then pure (none, r) else throw e

/-- All rows that are left, in at most `fuel` steps. -/
def drainWithin (r : Rows) : Nat → Session (List Value × Rows)
  | 0 => pure ([], r)
  | fuel + 1 => do
    match ← r.advance with
    | (none, r) => return ([], r)
    | (some v, r) =>
      let (vs, r) ← r.drainWithin fuel
      return (v :: vs, r)

/-- All rows that are left. Each step but the last uses up a row of the cursor. -/
def drain (r : Rows) : Session (List Value × Rows) := do
  r.drainWithin ((← Session.cursor r.cursor).rows.length + 1)

end Rows

/-- A statement kept at hand. -/
structure Handle where
  connection : Nat
  statement : String
  outputs : List ColumnType
  /-- The cursor it owns, if it owns one. -/
  own : Option Nat

namespace Handle

/-- A handle with a cursor of its own. -/
def owning (connection : Nat) (statement : String) (outputs : List ColumnType) :
    Session Handle := do
  let id ← Session.newCursor connection
  return { connection, statement, outputs, own := some id }

/-- A handle that makes a cursor for each call. -/
def cached (connection : Nat) (statement : String) (outputs : List ColumnType) : Handle :=
  { connection, statement, outputs, own := none }

/-- Sends the statement and gives the cursor it was sent over. -/
def run (h : Handle) (values : List (String × Value)) : Session Nat := do
  let id ← match h.own with
    | some id => pure id
    | none => Session.newCursor h.connection
  Session.submitNamed id h.statement values
  return id

/-- Runs the statement for its effect. -/
def execute (h : Handle) (values : List (String × Value)) : Session Int := do
  let id ← h.run values
  Session.effect id h.statement

/-- Runs the statement for its rows. -/
def rows (h : Handle) (values : List (String × Value)) (f : Mapper) : Session Rows := do
  let id ← h.run values
  return { cursor := id, types := h.outputs, mapper := f }

/-- Runs the statement and maps its first row. -/
def firstRow (h : Handle) (values : List (String × Value)) (f : Mapper) : Session Value := do
  let rows ← h.rows values f
  match ← rows.advance with
  | (some v, _) => return v
  | (none, _) => throw (.rows (.noRows (some h.statement)))

/-- Closes the cursor that the handle owns, if it owns one. -/
def close (h : Handle) : Session Unit :=
  match h.own with
  | some id => Session.closeCursor id
  | none => pure ()

end Handle

end QueryBook
