/-!
# Type expressions

The type of a parameter or of an output column: a name, and the types it is applied to. Nothing
here asks whether the name is known.
-/

namespace QueryBook

/-- A type as written: `int`, `Optional[bytes]`. -/
structure TypeExpr where
  name : String
  args : List TypeExpr
deriving Repr, Inhabited

namespace TypeExpr

mutual

/-- Equality of types, decided. -/
def decEq : (a b : TypeExpr) → Decidable (a = b)
  | ⟨n, as⟩, ⟨m, bs⟩ =>
    match (inferInstance : Decidable (n = m)), decEqList as bs with
    | isTrue h, isTrue k => isTrue (by rw [h, k])
    | isFalse h, _ => isFalse (fun e => h (TypeExpr.mk.inj e).1)
    | _, isFalse k => isFalse (fun e => k (TypeExpr.mk.inj e).2)

/-- Equality of lists of types, decided. -/
def decEqList : (as bs : List TypeExpr) → Decidable (as = bs)
  | [], [] => isTrue rfl
  | [], _ :: _ => isFalse nofun
  | _ :: _, [] => isFalse nofun
  | a :: as, b :: bs =>
    match decEq a b, decEqList as bs with
    | isTrue h, isTrue k => isTrue (by rw [h, k])
    | isFalse h, _ => isFalse (fun e => h (List.cons.inj e).1)
    | _, isFalse k => isFalse (fun e => k (List.cons.inj e).2)

end

instance : DecidableEq TypeExpr := decEq

mutual

/-- The type as it is written, arguments in brackets and separated by a comma and a space. -/
def text : TypeExpr → String
  | ⟨name, args⟩ =>
    match texts args with
    | [] => name
    | ts => name ++ "[" ++ String.intercalate ", " ts ++ "]"

/-- Each of several types as it is written. -/
def texts : List TypeExpr → List String
  | [] => []
  | t :: ts => t.text :: texts ts

end

mutual

/-- A type and all types inside it, the outermost first. -/
def nodes : TypeExpr → List TypeExpr
  | ⟨name, args⟩ => ⟨name, args⟩ :: nodesOf args

/-- The nodes of several types, in order. -/
def nodesOf : List TypeExpr → List TypeExpr
  | [] => []
  | t :: ts => t.nodes ++ nodesOf ts

end

end TypeExpr

end QueryBook
