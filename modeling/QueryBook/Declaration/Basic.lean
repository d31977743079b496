import QueryBook.Declaration.TypeExpr

/-!
# Declarations as written

A query book is a sequence of declarations. A declaration names a query, its parameters, the types
of its output columns and its statement text, and may carry attributes; what the attributes mean
is not decided here, so every declaration that follows the grammar has a value of these types.
-/

namespace QueryBook

/-- An option of an attribute: `with=[a, b]`. -/
structure AttributeOption where
  name : String
  values : List String
  /-- The line of the name. -/
  line : Int
deriving DecidableEq, Repr

/-- One entry of an attribute list: `named`, `test(with=[a])`. -/
structure Attribute where
  name : String
  /-- The line of the name. -/
  line : Int
  /-- `none` without parentheses. -/
  options : Option (List AttributeOption)
deriving DecidableEq, Repr

/-- A parameter of a query. -/
structure Parameter where
  name : String
  type : TypeExpr
deriving DecidableEq, Repr

/-- A query as it is declared. -/
structure Declaration where
  name : String
  /-- The line of the name. -/
  line : Nat
  attributes : List Attribute
  parameters : List Parameter
  outputs : List TypeExpr
  statement : String
deriving DecidableEq, Repr

end QueryBook
