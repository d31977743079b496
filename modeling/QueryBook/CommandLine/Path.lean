/-!
# Paths

A path is kept without its empty parts and without the parts that stand for the directory itself;
a part that stands for the parent stays. Two leading slashes are told from one, and more than two
are the same as one.
-/

namespace QueryBook

/-- A path. -/
structure Path where
  /-- The leading slashes. -/
  root : String
  parts : List String
deriving DecidableEq, Repr

namespace Path

/-- The parts of a text between slashes. -/
def splitSlashes : List Char → List (List Char)
  | [] => [[]]
  | c :: cs =>
    match splitSlashes cs with
    | [] => [[c]]
    | part :: parts => if c = '/' then [] :: part :: parts else (c :: part) :: parts

/-- The path that a text names. -/
def ofText (text : String) : Path :=
  let slashes := (text.toList.takeWhile (· == '/')).length
  { root := if slashes = 0 then "" else if slashes = 2 then "//" else "/"
    parts := ((splitSlashes text.toList).filter fun p => p ≠ [] ∧ p ≠ ['.']).map String.ofList }

/-- The text of a path. -/
def text (p : Path) : String :=
  if p.root.isEmpty && p.parts.isEmpty then "."
  else p.root ++ String.intercalate "/" p.parts

/-- The last part, if there is one. -/
def name (p : Path) : String := p.parts.getLast?.getD ""

end Path

end QueryBook
