import QueryBook.Session.Cache
import QueryBook.Session.Failure

/-!
# Several caches with one client

Caches are told apart by number and share one client. A client is whatever answers requests for
statements: it may keep a state of its own, and any request may fail. A step asks a cache for a
statement, or whether it has one; its report says what came out, what the client was asked for and
what it answered, and how large the cache is afterwards. A cache that was never used is empty.
-/

namespace QueryBook

/-- Caches by number. -/
structure CacheShelf where
  entries : List (Int × StatementCache)
deriving Repr

namespace CacheShelf

/-- No cache was used. -/
def empty : CacheShelf := { entries := [] }

/-- The cache of this number. -/
def get (s : CacheShelf) (i : Int) : StatementCache := (s.entries.lookup i).getD .empty

/-- Puts a cache in its place. -/
def put (s : CacheShelf) (i : Int) (c : StatementCache) : CacheShelf :=
  { entries := (i, c) :: s.entries }

end CacheShelf

namespace Caches

/-- What prepares statements, with a state of its own. -/
abbrev Client (σ : Type) := CacheKey → EStateM Failure σ Prepared

/-- What a step asks of a cache. -/
inductive Action where
  /-- The statement of a key. -/
  | prepare (key : CacheKey)
  /-- The statement of a text without parameter types. -/
  | prepareUntyped (statement : String)
  /-- Whether there is a statement for a key. -/
  | contains (key : CacheKey)
deriving Repr

/-- A step of work with caches. -/
structure Step where
  /-- The number of the cache. -/
  cache : Int
  action : Action
deriving Repr

/-- What comes out of a step. -/
inductive Result where
  | statement (p : Prepared)
  | present (answer : Bool)
deriving Repr

/-- A call of the client. -/
structure Call where
  key : CacheKey
  answer : Except Failure Prepared

/-- The report on a step. -/
structure Report where
  outcome : Except Failure Result
  /-- How the client was called. -/
  calls : List Call
  /-- The size of the cache afterwards. -/
  size : Nat
  journal : List LogRecord

variable {σ : Type}

/-- The caches and the state of their client. -/
structure State (σ : Type) where
  shelf : CacheShelf
  client : σ

/-- No cache was used. -/
def State.start (client : σ) : State σ := { shelf := .empty, client }

/-- Calls the client and takes down its answer. -/
def noted (client : Client σ) (key : CacheKey) : EStateM Failure (σ × List Call) Prepared :=
  fun (c, calls) =>
    match client key c with
    | .ok p c => .ok p (c, calls ++ [{ key, answer := .ok p }])
    | .error e c => .error e (c, calls ++ [{ key, answer := .error e }])

/-- What a request to the cache of number `i` comes to. -/
def answer (s : State σ) (i : Int)
    (request : EStateM Failure (σ × List Call) (Prepared × StatementCache × LogRecord)) :
    Report × State σ :=
  match request (s.client, []) with
  | .ok (p, cache, r) (client, calls) =>
    ({ outcome := .ok (.statement p), calls, size := cache.size, journal := [r] },
      { shelf := s.shelf.put i cache, client })
  | .error e (client, calls) =>
    ({ outcome := .error e, calls, size := (s.shelf.get i).size, journal := [] },
      { s with client })

/-- One step and its report. -/
def step (client : Client σ) (s : State σ) (t : Step) : Report × State σ :=
  let cache := s.shelf.get t.cache
  match t.action with
  | .contains key =>
    ({ outcome := .ok (.present (cache.contains key)), calls := [], size := cache.size,
       journal := [] }, s)
  | .prepare key => answer s t.cache (cache.request key (noted client))
  | .prepareUntyped statement => answer s t.cache (cache.requestUntyped statement (noted client))

/-- The reports on several steps. -/
def run (client : Client σ) (s : State σ) : List Step → List Report
  | [] => []
  | t :: rest =>
    let (r, s) := step client s t
    r :: run client s rest

end Caches

end QueryBook
