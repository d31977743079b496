import QueryBook.Code.Error
import QueryBook.Declaration.SyntaxError
import QueryBook.Session.SystemError
import QueryBook.Statement.Command

/-!
# What can go wrong at run time

A run can fail because the rows of a query are not what its declaration promises, because the
database driver reports an error, or for a reason that has nothing to do with the database. The
three are told apart: only driver errors are reported by test setup, and only a statement that
returned rows unasked is passed over by it.
-/

namespace QueryBook

/-- The rows of a query are not as declared. The statement is mentioned if known. -/
inductive RowError where
  | noRows (statement : Option String)
  | tooManyRows (count : Int) (statement : Option String)
  /-- A value that is not of its declared type, or another reason why a column cannot be read. -/
  | decode (column : Int) (expected : String) (value : Value) (reason : Option String)
  /-- A statement run for its effect returned rows. -/
  | executeReturnedRows (statement : Option String)
deriving Repr

/-- The message of an error about rows. -/
def RowError.message : RowError → String
  | noRows _ => "Query returned no rows."
  | tooManyRows count _ => s!"Query returned {count} rows, expected at most one."
  | decode column expected value reason =>
    let because :=
      match reason with
      | some text =>
        if text.isEmpty then s!"cannot decode {value.kind} value {value.display} as {expected}"
        else text
      | none => s!"cannot decode {value.kind} value {value.display} as {expected}"
    s!"Column {column}: {because}."
  | executeReturnedRows _ => "Execute returned results; use a query operation instead."

/-- What an error says that has nothing but arguments: nothing, its one argument, or all of them as
a row. -/
def argumentsText : List Value → String
  | [] => ""
  | [v] => v.plain
  | vs => (Value.row vs).display

/-- An error of this library. -/
inductive LibraryError where
  /-- An error of no particular kind. -/
  | general (args : List Value)
  /-- A malformed text, with the place. -/
  | malformed (description : String) (line column : Option Int)
  /-- A refused book. -/
  | refused (r : Refusal)
  /-- No module was generated. -/
  | compilation (text : String) (query : Option String)
  /-- A setting is missing. -/
  | config (args : List Value)
  /-- An error about rows, of no particular kind. -/
  | rowsGeneral (args : List Value)
  | rows (e : RowError)
deriving Repr

/-- The message of an error of this library. -/
def LibraryError.message : LibraryError → String
  | general args => argumentsText args
  | malformed description line column => placed description line column
  | refused r => r.message
  | compilation text _ => text
  | config args => argumentsText args
  | rowsGeneral args => argumentsText args
  | rows e => e.message

/-- Where an error that is not of this library comes from. -/
inductive Source where
  /-- The database driver of a backend. -/
  | driver (backend : Backend)
  /-- The generated language itself. -/
  | language
deriving DecidableEq, Repr

/-- Why a run failed. -/
inductive Failure where
  | library (e : LibraryError)
  /-- An error raised elsewhere: its class and arguments. -/
  | raised (source : Source) (name : String) (args : List Value)
deriving Repr

namespace Failure

/-- An error about rows. -/
def rows (e : RowError) : Failure := .library (.rows e)

/-- An error of the generated language with one text. -/
def language (name text : String) : Failure := .raised .language name [.text text]

/-- A whole number that no double is near to. -/
def tooLarge : Failure := language "OverflowError" "int too large to convert to float"

/-- A whole number of more digits than are written. -/
def tooLong (digits : Nat) : Failure :=
  language "ValueError" <|
    s!"Exceeds the limit ({digits} digits) for integer string conversion; " ++
    "use sys.set_int_max_str_digits() to increase the limit"

/-- Why a message cannot show a value, when the language bounds the digits that it writes. -/
def ofDisplay? (limit : Option Nat) (v : Value) : Option Failure :=
  limit.bind fun digits => if v.fits digits then none else some (tooLong digits)

/-- A variable that was never set. -/
def unset (name : String) : Failure := language "KeyError" name

/-- An error of the generated language, raised as one of a class. -/
def ofClass (name : String) (args : List Value) : Failure :=
  .raised .language (SystemError.className name args) args

/-- What a failed look-up says: it shows its key as in messages. -/
def lookupText : List Value → String
  | [key] => key.display
  | args => argumentsText args

/-- What a system error says. -/
def systemText (name : String) (args : List Value) : String :=
  match SystemError.Details.ofArguments? args with
  | some d => d.message name
  | none => argumentsText args

/-- The message of an error raised elsewhere. Errors of most classes say no more than their
arguments. -/
def raisedMessage (name : String) (args : List Value) : String :=
  if name = "KeyError" then lookupText args
  else if SystemError.classes.contains name then systemText name args
  else argumentsText args

/-- The message of a failure. -/
def message : Failure → String
  | library e => e.message
  | raised _ name args => raisedMessage name args

/-- Whether the driver of a backend reports the failure. -/
def isDriverError (backend : Backend) : Failure → Bool
  | raised (.driver b) _ _ => b == backend
  | _ => false

/-- Whether the failure is the sign of the generated language that an iteration is over. -/
def endsIteration : Failure → Bool
  | raised .language name _ => name == "StopIteration"
  | _ => false

/-- Whether a statement run for its effect returned rows. -/
def isReturnedRows : Failure → Bool
  | library (.rows (.executeReturnedRows _)) => true
  | _ => false

end Failure

end QueryBook
