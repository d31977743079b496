import QueryBook.Journal
import QueryBook.Statement.Command

/-!
# Caches of prepared statements

A cache keeps the prepared statement of each text and list of parameter types it was asked for, so
that each is prepared at most once. Nothing is ever forgotten, and a statement that could not be
prepared is not kept, so the next request tries again.
-/

namespace QueryBook

/-- A statement text and its parameter types. -/
abbrev CacheKey := String × List String

/-- Prepared statements by key, in the order in which they were prepared. -/
structure StatementCache where
  entries : List (CacheKey × Prepared)
deriving Repr

namespace StatementCache

/-- Nothing cached. -/
def empty : StatementCache := { entries := [] }

/-- The statement cached for a key. -/
def find? (c : StatementCache) (key : CacheKey) : Option Prepared := c.entries.lookup key

/-- Whether a statement is cached for a key. -/
def contains (c : StatementCache) (key : CacheKey) : Bool := (c.find? key).isSome

/-- How many statements are cached. -/
def size (c : StatementCache) : Nat := c.entries.length

/-- Keeps a statement. -/
def insert (c : StatementCache) (key : CacheKey) (p : Prepared) : StatementCache :=
  { entries := c.entries ++ [(key, p)] }

/-- A record of the cache. -/
def record (message : String) : LogRecord :=
  { level := .debug, logger := "sqlfn.runtime.cache", message }

/-- The statement of a key, prepared by `prepare` if it is not cached, with the cache afterwards and
the record of what happened. -/
def request {m : Type → Type} [Monad m] (c : StatementCache) (key : CacheKey)
    (prepare : CacheKey → m Prepared) : m (Prepared × StatementCache × LogRecord) :=
  match c.find? key with
  | some p => pure (p, c, record s!"prepared statement cache hit: {p.name}")
  | none => do
    let p ← prepare key
    pure (p, c.insert key p, record s!"prepared statement cache miss, prepared {p.name}")

/-- The statement of a text without parameter types. -/
def requestUntyped {m : Type → Type} [Monad m] (c : StatementCache) (statement : String)
    (prepare : CacheKey → m Prepared) : m (Prepared × StatementCache × LogRecord) :=
  c.request (statement, []) prepare

end StatementCache

end QueryBook
