import QueryBook.Proofs.Setup.Once

/-!
# Entry points fail in order

An entry point opens a connection, has the query set up with a fresh byte source and nothing marked,
and closes the connection. Its statements are those of a walk, with what comes before them. So
nothing that a database answers has a say in them, and an error ends the run where it occurs: the
call of a dependency stands outside of what a routine guards, so that only the routine whose own
statement failed reports it.

This holds of every checked book. Where the name of a function was taken by another, or a parameter
stands in the way of a statement text, a query may send another statement than its own, or be
refused before it sends anything. Then the entry point does so against every database.
-/

namespace QueryBook

open Setup
open Run (lift)

/-- What a computation did: how it ended, the events that it added and the records that it wrote. -/
structure Observation where
  outcome : Except Failure Unit
  events : List Event
  journal : List LogRecord

namespace Observation

/-- The statements that were sent, each with its connection. -/
def sent (o : Observation) : List (Nat × Command) := o.events.filterMap Event.sent?

/-- The errors that were reported. -/
def errors (o : Observation) : List LogRecord := o.journal.filter fun r => r.level == .error

end Observation

namespace World

/-- The world after a connection was closed. -/
def closed (w : World) (c : Nat) : World := { w with events := w.events ++ [.close c] }

end World

namespace Run

variable {x : Run Object} {m m' : Memory} {opening : Event} {c : Nat} {r : Except Failure Unit}

end Run

/-! ## The call of the routine -/

namespace Program

namespace Of

variable {config : Config} {b : Book} {p : Program} {q : Query} {depth c : Nat} {fr : Frame}

end Of

end Program

/-! ## Entry points -/

namespace Program.Of

variable {config : Config} {b : Book} {p : Program} {q : Query}

end Program.Of

namespace Program

end Program

namespace Program

end Program

end QueryBook
