import QueryBook.Query.Error
import QueryBook.Text.Digit
import QueryBook.Text.Word

/-!
# Named placeholders

A network statement may write its parameters as `:name`; the server knows them as `$1`, `$2`, …. A
marker is a colon and the longest identifier behind it, letters of any script allowed. A marker of
a declared parameter becomes the parameter's position, counted from one; if a name is declared
twice the first position counts. Every other marker stays as it is.

A misspelt name would thus pass unnoticed, so the strict mode refuses a statement with a marker
that is no parameter, unless a second colon comes right before it: `::type` is a cast.
-/

namespace QueryBook.Placeholder

/-- A character that may start an identifier. -/
def isStart (c : Char) : Bool := Text.isWord c && !Text.isDecimalDigit c

/-- The longest identifier at the head of a text; empty if none starts there. -/
def identifier : List Char → List Char
  | c :: cs => if isStart c then (c :: cs).takeWhile Text.isWord else []
  | [] => []

/-- A piece of a statement. -/
inductive Piece where
  | char (c : Char)
  /-- A colon and an identifier, and whether another colon comes right before. -/
  | marker (name : List Char) (afterColon : Bool)
deriving DecidableEq, Repr

/-- Cuts a statement into markers and the characters between them. -/
def pieces (afterColon : Bool) : List Char → List Piece
  | [] => []
  | c :: cs =>
    if c = ':' then
      match identifier cs with
      | [] => .char c :: pieces true cs
      | name => .marker name afterColon :: pieces false (cs.drop name.length)
    else .char c :: pieces false cs
termination_by cs => cs.length
decreasing_by all_goals simp only [List.length_cons, List.length_drop]; omega

/-- The position of a parameter, counted from one. -/
def position? (names : List (List Char)) (name : List Char) : Option Nat :=
  (names.idxOf? name).map (· + 1)

/-- A piece with the marker of a parameter replaced by its position. -/
def Piece.resolve (names : List (List Char)) : Piece → List Char
  | .char c => [c]
  | .marker name _ =>
    match position? names name with
    | some n => '$' :: Nat.toDigits 10 n
    | none => ':' :: name

/-- The name of a marker that the strict mode refuses. -/
def Piece.unmatched? (names : List (List Char)) : Piece → Option (List Char)
  | .char _ => none
  | .marker name afterColon =>
    if afterColon ∨ (position? names name).isSome then none else some name

/-- The statement with every marker of a parameter replaced. -/
def positionsIn (names : List (List Char)) (cs : List Char) : List Char :=
  (pieces false cs).flatMap (Piece.resolve names)

/-- The first marker that the strict mode refuses. -/
def firstUnmatched? (names : List (List Char)) (cs : List Char) : Option (List Char) :=
  (pieces false cs).findSome? (Piece.unmatched? names)

/-- The statement of a query with its placeholders replaced by positions. -/
def toPositions (strict : Bool) (query : Option String) (names : List String) (statement : String) :
    Except BookError String :=
  let chars := names.map String.toList
  match strict, firstUnmatched? chars statement.toList with
  | true, some name =>
    .error { fault := .unmatchedPlaceholder (.ofList name) names, query, line := none }
  | _, _ => .ok (.ofList (positionsIn chars statement.toList))

end QueryBook.Placeholder
