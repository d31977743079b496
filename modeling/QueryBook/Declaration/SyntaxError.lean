import QueryBook.Declaration.Token

/-!
# Why a text is no query book

A malformed text is refused at one place. The place is known except at the end of the text; an
unknown escape is placed by the line of its string literal alone.
-/

namespace QueryBook

/-- A description with the place it is about; a column is mentioned only along with its line. -/
def placed (description : String) (line column : Option Int) : String :=
  match line, column with
  | none, _ => description
  | some line, none => s!"{description} (line {line})"
  | some line, some column => s!"{description} (line {line}, column {column})"

/-- A malformed text: what is wrong and where. -/
inductive SyntaxError where
  /-- No token, blank or comment starts with this character. -/
  | illegalCharacter (c : Char) (line column : Nat)
  /-- A string literal, starting on `line`, escapes a character that has no escape. -/
  | unknownEscape (c : Char) (line : Nat)
  /-- No query book continues with this token. -/
  | unexpected (value : String) (line column : Nat)
  /-- The text ends inside a declaration. -/
  | unexpectedEnd
deriving DecidableEq, Repr

namespace SyntaxError

/-- What is wrong, without the place. -/
def description : SyntaxError → String
  | illegalCharacter c _ _ => s!"Illegal character '{c}'"
  | unknownEscape c _ => s!"Unknown escape sequence '\\{c}' in string literal"
  | unexpected value _ _ => s!"Syntax error at '{value}'"
  | unexpectedEnd => "Syntax error at end of input"

/-- The line, if known. -/
def line : SyntaxError → Option Int
  | illegalCharacter _ line _ => some line
  | unknownEscape _ line => some line
  | unexpected _ line _ => some line
  | unexpectedEnd => none

/-- The column, if known. -/
def column : SyntaxError → Option Int
  | illegalCharacter _ _ column => some column
  | unknownEscape _ _ => none
  | unexpected _ _ column => some column
  | unexpectedEnd => none

/-- The message: the description and, if the line is known, the place. -/
def message (e : SyntaxError) : String := placed e.description e.line e.column

end SyntaxError

end QueryBook
