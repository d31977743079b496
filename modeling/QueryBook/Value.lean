import QueryBook.Number.Format
import QueryBook.Text.Literal

/-!
# Database values

What a driver returns in a column and takes as a parameter. A byte string may come as a plain one,
as a mutable array or as a view into foreign memory; the three are told apart because messages
name the kind of a value. A row of values is itself a value.
-/

namespace QueryBook

/-- A database value. -/
inductive Value where
  | null
  | bool (b : Bool)
  | int (n : Int)
  | float (x : Binary64)
  | text (s : String)
  | bytes (data : List UInt8)
  | byteArray (data : List UInt8)
  | byteView (data : List UInt8)
  | row (columns : List Value)
deriving Repr, Inhabited

namespace Value

/-- The kind of a value, as messages name it. -/
def kind : Value → String
  | null => "NoneType"
  | bool _ => "bool"
  | int _ => "int"
  | float _ => "float"
  | text _ => "str"
  | bytes _ => "bytes"
  | byteArray _ => "bytearray"
  | byteView _ => "memoryview"
  | row _ => "tuple"

mutual

/-- The value as messages show it. A view shows nothing of its bytes. -/
def display : Value → String
  | null => "None"
  | bool true => "True"
  | bool false => "False"
  | int n => toString n
  | float x => x.text
  | text s => Text.literal s
  | bytes data => Text.byteLiteral data
  | byteArray data => Text.byteArrayLiteral data
  | byteView _ => "<memory>"
  | row columns =>
    match displayAll columns with
    | [] => "()"
    | [one] => "(" ++ one ++ ",)"
    | shown => "(" ++ String.intercalate ", " shown ++ ")"

/-- Each of several values as messages show it. -/
def displayAll : List Value → List String
  | [] => []
  | v :: vs => v.display :: displayAll vs

end

mutual

/-- Whether no whole number in the value has more than so many digits. -/
def fits (digits : Nat) : Value → Bool
  | int n => n.natAbs < Nat.pow 10 digits
  | row columns => fitsAll digits columns
  | _ => true

/-- The same of each of several values. -/
def fitsAll (digits : Nat) : List Value → Bool
  | [] => true
  | v :: vs => v.fits digits && fitsAll digits vs

end

/-- The value as a text that holds it shows it: a text as it is, all else as in messages. -/
def plain : Value → String
  | text s => s
  | v => v.display

end Value

end QueryBook
