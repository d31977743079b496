import QueryBook.Declaration.Position

/-!
# Tokens of a query book

A query book is written with identifiers, string literals and eleven marks; blanks, newlines
and comments separate them and mean nothing. A token is what was written together with where it
starts.
-/

namespace QueryBook

/-- A punctuation mark. -/
inductive Mark where
  | hash | arrow | lbrace | rbrace | lbracket | rbracket | lparen | rparen | colon | comma | equals
deriving DecidableEq, Repr

/-- How a mark is written. -/
def Mark.spelling : Mark → String
  | .hash => "#"
  | .arrow => "->"
  | .lbrace => "\x7b"
  | .rbrace => "\x7d"
  | .lbracket => "["
  | .rbracket => "]"
  | .lparen => "("
  | .rparen => ")"
  | .colon => ":"
  | .comma => ","
  | .equals => "="

/-- What a token says: a name, the text of a string literal, or a mark. -/
inductive Lexeme where
  | identifier (name : String)
  | string (text : String)
  | mark (m : Mark)
deriving DecidableEq, Repr

/-- The text a token stands for: a string literal without its quotes and with its escapes
resolved. -/
def Lexeme.value : Lexeme → String
  | .identifier name => name
  | .string text => text
  | .mark m => m.spelling

/-- A token and the position of its first character. -/
structure Token where
  lexeme : Lexeme
  position : Position
deriving DecidableEq, Repr

namespace Token

/-- The line on which the token starts. -/
def line (t : Token) : Nat := t.position.line

/-- The column in which the token starts. -/
def column (t : Token) : Nat := t.position.column

/-- The text the token stands for. -/
def value (t : Token) : String := t.lexeme.value

end Token

end QueryBook
