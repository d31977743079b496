/-!
# Positions in a text

A position counts the characters before it and says on which line and in which column it lies. It
moves over one character at a time: a line feed starts the next line, every other character, the
carriage return included, takes one column.
-/

namespace QueryBook

/-- A place between two characters of a text. -/
structure Position where
  /-- How many characters come before. -/
  offset : Nat
  /-- The line, counted from one. -/
  line : Nat
  /-- The column, counted from one. -/
  column : Nat
deriving DecidableEq, Repr, Inhabited

namespace Position

/-- The beginning of a text. -/
def start : Position := { offset := 0, line := 1, column := 1 }

/-- The position after one more character. -/
def step (p : Position) (c : Char) : Position :=
  if c = '\n' then { offset := p.offset + 1, line := p.line + 1, column := 1 }
  else { p with offset := p.offset + 1, column := p.column + 1 }

/-- The position after some more characters. -/
def advance (p : Position) (cs : List Char) : Position := cs.foldl step p

end Position

end QueryBook
