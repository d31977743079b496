import QueryBook.Declaration.TypeExpr
import QueryBook.Session.Failure

/-!
# Column types

A column type says which values of a driver it accepts and what they become. Whole numbers are
accepted where a double is declared, and zero and one where a truth value is; a truth value is
never a number, and every form of byte string becomes a plain one. An optional column also accepts
null.
-/

namespace QueryBook

/-- The type of a column at run time. -/
inductive ColumnType where
  | int | float | bool | text | bytes
  | optional (inner : ColumnType)
deriving DecidableEq, Repr

namespace ColumnType

/-- The type as it is declared. -/
def name : ColumnType → String
  | int => "int"
  | float => "float"
  | bool => "bool"
  | text => "str"
  | bytes => "bytes"
  | optional inner => "Optional[" ++ inner.name ++ "]"

/-- The type as messages show it. -/
def display (t : ColumnType) : String :=
  let name := t.name
  s!"<ColumnType {name}>"

/-- The column type of a type expression that is supported throughout. -/
def ofTypeExpr? : TypeExpr → Option ColumnType
  | ⟨"int", []⟩ => some int
  | ⟨"float", []⟩ => some float
  | ⟨"bool", []⟩ => some bool
  | ⟨"str", []⟩ => some text
  | ⟨"bytes", []⟩ => some bytes
  | ⟨"memoryview", []⟩ => some bytes
  | ⟨"Optional", [inner]⟩ => (ofTypeExpr? inner).map optional
  | _ => none

/-- Why a value does not become a value of a type. -/
inductive Misfit where
  /-- It is of another kind. -/
  | kind
  /-- It is a whole number that no double is near to. -/
  | tooLarge
deriving DecidableEq, Repr

/-- What a value becomes in a column of this type. -/
def convert : ColumnType → Value → Except Misfit Value
  | int, .int n => .ok (.int n)
  | float, .float x => .ok (.float x)
  | float, .int n =>
    match Binary64.ofInt? n with
    | some x => .ok (.float x)
    | none => .error .tooLarge
  | bool, .bool b => .ok (.bool b)
  | bool, .int n =>
    if n = 0 then .ok (.bool false) else if n = 1 then .ok (.bool true) else .error .kind
  | text, .text s => .ok (.text s)
  | bytes, .bytes data => .ok (.bytes data)
  | bytes, .byteArray data => .ok (.bytes data)
  | bytes, .byteView data => .ok (.bytes data)
  | optional _, .null => .ok .null
  | optional inner, v => inner.convert v
  | _, _ => .error .kind

/-- Decodes the value of a column. The error shows the value, so that a value that cannot be shown
is another failure; `limit` bounds the digits of a whole number in a message. -/
def decode (t : ColumnType) (column : Int) (v : Value) (limit : Option Nat := none) :
    Except Failure Value :=
  match t.convert v with
  | .ok w => .ok w
  | .error .kind =>
    .error ((Failure.ofDisplay? limit v).getD (.rows (.decode column t.name v none)))
  | .error .tooLarge => .error .tooLarge

/-- Decodes columns from left to right; the first failure counts. -/
def decodeColumns (limit : Option Nat) (column : Nat) :
    List ColumnType → List Value → Except Failure (List Value)
  | t :: types, v :: values => do
    let first ← t.decode column v limit
    let rest ← decodeColumns limit (column + 1) types values
    pure (first :: rest)
  | _, _ => .ok []

/-- Decodes a row. Columns beyond the declared ones are ignored; a missing column is reported before
any column is decoded. -/
def decodeRow (types : List ColumnType) (row : List Value) (limit : Option Nat := none) :
    Except Failure (List Value) :=
  match types.drop row.length with
  | missing :: _ =>
    let reason := s!"row has {row.length} columns, {types.length} declared"
    .error (.rows (.decode row.length missing.name .null (some reason)))
  | [] => decodeColumns limit 0 types row

end ColumnType

end QueryBook
