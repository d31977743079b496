import QueryBook.Code.Definition
import QueryBook.Query.SupportedType

/-!
# Types in generated code

A type appears in generated code in three forms: as the hint of a parameter, as the hint of an
output column, and as the expression of its runtime column type. Each exists as long as all its
names are supported; the number of arguments of a name is not asked for here. The first unknown
name, from the outside in and from left to right, is reported.
-/

namespace QueryBook.TypeExpr

/-- The supported type of a name, or the name. -/
def supported (name : String) : Except String SupportedType :=
  match SupportedType.find? name with
  | some s => .ok s
  | none => .error name

mutual

/-- The hint of a parameter, or of an output column. -/
def hint (output : Bool) : TypeExpr → Except String String
  | ⟨name, args⟩ => do
    let s ← supported name
    let base := if output then s.outputHint else s.hint
    let inner ← hints output args
    if inner.isEmpty then pure base
    else pure (base ++ "[" ++ String.intercalate ", " inner ++ "]")

/-- The hints of several types. -/
def hints (output : Bool) : List TypeExpr → Except String (List String)
  | [] => pure []
  | t :: ts => do
    let first ← t.hint output
    let rest ← hints output ts
    pure (first :: rest)

end

mutual

/-- The expression of the runtime column type, where `library` is the module that has them. -/
def column (library : String) : TypeExpr → Except String Expr
  | ⟨name, args⟩ => do
    let s ← supported name
    let base := Expr.field (.global library) s.column
    let inner ← columns library args
    if inner.isEmpty then pure base else pure (.call base inner)

/-- The expressions of several runtime column types. -/
def columns (library : String) : List TypeExpr → Except String (List Expr)
  | [] => pure []
  | t :: ts => do
    let first ← t.column library
    let rest ← columns library ts
    pure (first :: rest)

end

end QueryBook.TypeExpr
