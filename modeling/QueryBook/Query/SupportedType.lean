import QueryBook.Declaration.TypeExpr

/-!
# The supported types

The type names a query may use. A name comes with the spelling of its values in generated code, as
a parameter and as an output column, with the runtime column type behind it, and with the number
of types it is applied to.
-/

namespace QueryBook

/-- A type name that queries may use. -/
structure SupportedType where
  name : String
  /-- The type hint of a parameter. -/
  hint : String
  /-- The type hint of an output column, whose value the caller owns. -/
  outputHint : String
  /-- The runtime column type, or its constructor. -/
  column : String
  /-- The number of type arguments. -/
  arity : Nat
deriving DecidableEq, Repr

namespace SupportedType

/-- All of them, in the order in which they are listed. -/
def all : List SupportedType := [
  ⟨"int", "int", "int", "INT", 0⟩,
  ⟨"float", "float", "float", "FLOAT", 0⟩,
  ⟨"bool", "bool", "bool", "BOOL", 0⟩,
  ⟨"str", "str", "str", "STR", 0⟩,
  ⟨"bytes", "bytes", "bytes", "BYTES", 0⟩,
  ⟨"memoryview", "memoryview", "bytes", "BYTES", 0⟩,
  ⟨"Optional", "Optional", "Optional", "optional", 1⟩]

/-- The supported type of this name. -/
def find? (name : String) : Option SupportedType := all.find? (·.name == name)

/-- The supported names in alphabetical order, capitals first. -/
def names : List String := (all.map SupportedType.name).mergeSort (fun a b => decide (a ≤ b))

end SupportedType

/-- Whether a type, leaving aside the types inside it, is a supported name with as many arguments as
it takes. -/
def TypeExpr.isSupported (t : TypeExpr) : Bool :=
  match SupportedType.find? t.name with
  | some s => s.arity == t.args.length
  | none => false

end QueryBook
