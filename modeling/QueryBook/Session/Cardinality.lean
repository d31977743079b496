import QueryBook.Session.Failure

/-!
# How many rows a result has

Two promises about a complete result: that it has exactly one row, and that it has at most one.
-/

namespace QueryBook.Cardinality

variable {α : Type}

/-- The only row. -/
def one (statement : Option String) : List α → Except RowError α
  | [] => .error (.noRows statement)
  | [row] => .ok row
  | rows => .error (.tooManyRows rows.length statement)

/-- The only row, if there is any. -/
def atMostOne (statement : Option String) : List α → Except RowError (Option α)
  | [] => .ok none
  | [row] => .ok (some row)
  | rows => .error (.tooManyRows rows.length statement)

end QueryBook.Cardinality
