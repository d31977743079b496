/-!
# Journals

Work that reports what it does keeps a journal, and the journal survives a failure: it holds the
records up to the point where the work stopped.
-/

namespace QueryBook

/-- How much a record matters. -/
inductive Level where
  | debug | info | warning | error
deriving DecidableEq, Repr

/-- The name of a level. -/
def Level.name : Level → String
  | debug => "DEBUG"
  | info => "INFO"
  | warning => "WARNING"
  | error => "ERROR"

/-- The rank of a level. -/
def Level.rank : Level → Nat
  | debug => 0
  | info => 1
  | warning => 2
  | error => 3

/-- A record of a journal. -/
structure LogRecord where
  level : Level
  /-- The part of the program that reports. -/
  logger : String
  message : String
deriving DecidableEq, Repr

/-- A record as one line of text. -/
def LogRecord.text (r : LogRecord) : String := s!"{r.level.name} {r.logger}: {r.message}"

/-- The outcome of some work and the journal it kept. -/
structure Journaled (ε α : Type) where
  journal : List LogRecord
  outcome : Except ε α

namespace Journaled

variable {ε α β : Type}

/-- Work done without a report. -/
def pure (a : α) : Journaled ε α := { journal := [], outcome := .ok a }

/-- Work followed by more work, unless it failed. -/
def bind (x : Journaled ε α) (f : α → Journaled ε β) : Journaled ε β :=
  match x.outcome with
  | .ok a => { journal := x.journal ++ (f a).journal, outcome := (f a).outcome }
  | .error e => { journal := x.journal, outcome := .error e }

instance : Monad (Journaled ε) where
  pure := pure
  bind := bind

/-- Reports something. -/
def log (level : Level) (logger message : String) : Journaled ε Unit :=
  { journal := [{ level, logger, message }], outcome := .ok () }

/-- Work that reports nothing. -/
def lift (x : Except ε α) : Journaled ε α := { journal := [], outcome := x }

end Journaled

end QueryBook
