import QueryBook.Declaration.SyntaxError

/-!
# Cutting a text into tokens

A text is cut from the left into pieces: blanks, comments and lexemes. Each piece is found from
the characters at hand, and the cut goes on behind it, until the text ends, or no piece starts, or
a string literal holds an unknown escape. What was cut before a fault is kept, because a reader
that stops at an earlier token never gets to know of the fault.

A string literal is written in one of two ways. Between tripled quotes every character stands for
itself, up to the first tripled quote. Between single quotes a backslash escapes the next
character and the literal ends on the line where it starts. A tripled quote that is never closed
is read as an empty literal between single quotes, and a third quote behind it.
-/

namespace QueryBook

namespace Token

/-- A letter or underscore of ASCII, which may start an identifier. -/
def isNameStart (c : Char) : Bool := c.isAlpha || c == '_'

/-- A letter, digit or underscore of ASCII, which may continue an identifier. -/
def isNameRest (c : Char) : Bool := c.isAlphanum || c == '_'

/-- A character that separates tokens on a line. -/
def isSpace (c : Char) : Bool := c == ' ' || c == '\t' || c == '\r'

/-- The mark that is one character long. -/
def mark? : Char → Option Mark
  | '#' => some .hash
  | '\x7b' => some .lbrace
  | '\x7d' => some .rbrace
  | '[' => some .lbracket
  | ']' => some .rbracket
  | '(' => some .lparen
  | ')' => some .rparen
  | ':' => some .colon
  | ',' => some .comma
  | '=' => some .equals
  | _ => none

/-- The characters before the first tripled quote, if there is one. -/
def untilTripledQuote : List Char → Option (List Char)
  | '"' :: '"' :: '"' :: _ => some []
  | c :: cs => (untilTripledQuote cs).map (c :: ·)
  | [] => none

/-- The characters before the closing quote, if it comes on this line. -/
def untilQuote : List Char → Option (List Char)
  | '"' :: _ => some []
  | '\\' :: c :: cs => if c = '\n' then none else (untilQuote cs).map ('\\' :: c :: ·)
  | c :: cs => if c = '\\' ∨ c = '\n' then none else (untilQuote cs).map (c :: ·)
  | [] => none

/-- The character that an escaped character stands for. -/
def escape? : Char → Option Char
  | 'n' => some '\n'
  | 't' => some '\t'
  | 'r' => some '\r'
  | '\\' => some '\\'
  | '"' => some '"'
  | '\'' => some '\''
  | '0' => some '\x00'
  | _ => none

/-- The text of a literal between single quotes, or its first unknown escape. -/
def unescape : List Char → Except Char (List Char)
  | '\\' :: c :: cs =>
    match escape? c with
    | some d => (unescape cs).map (d :: ·)
    | none => .error c
  | c :: cs => (unescape cs).map (c :: ·)
  | [] => .ok []

/-- A piece of a text. -/
inductive Piece where
  /-- A blank, a newline or a comment. -/
  | gap
  | lexeme (l : Lexeme)
  /-- A string literal with an unknown escape. -/
  | badEscape (c : Char)
deriving DecidableEq, Repr

/-- A string literal whose opening quote comes before `cs`, and how many characters of `cs` it
takes. -/
def stringPiece (cs : List Char) : Option (Piece × Nat) :=
  let plain :=
    (untilQuote cs).map fun body =>
      match unescape body with
      | .ok text => (.lexeme (.string (.ofList text)), body.length + 1)
      | .error c => (.badEscape c, body.length + 1)
  match cs with
  | '"' :: '"' :: inner =>
    match untilTripledQuote inner with
    | some body => some (.lexeme (.string (.ofList body)), body.length + 5)
    | none => plain
  | _ => plain

/-- The piece that starts the text `c :: cs`, and how many characters of `cs` it takes. -/
def piece? (c : Char) (cs : List Char) : Option (Piece × Nat) :=
  if isSpace c ∨ c = '\n' then some (.gap, 0)
  else if c = '"' then stringPiece cs
  else if isNameStart c then
    let rest := cs.takeWhile isNameRest
    some (.lexeme (.identifier (.ofList (c :: rest))), rest.length)
  else if c = '/' ∧ cs.head? = some '/' then some (.gap, (cs.takeWhile (· ≠ '\n')).length)
  else if c = '-' ∧ cs.head? = some '>' then some (.lexeme (.mark .arrow), 1)
  else (mark? c).map fun m => (.lexeme (.mark m), 0)

/-- The tokens of a text, up to its end or to the first fault. -/
structure Scan where
  tokens : List Token
  fault : Option SyntaxError
deriving DecidableEq, Repr

/-- One token more in front. -/
def Scan.cons (t : Token) (s : Scan) : Scan := { s with tokens := t :: s.tokens }

/-- Cuts the rest of a text, which starts at `p`. -/
def scanFrom (p : Position) : List Char → Scan
  | [] => { tokens := [], fault := none }
  | c :: cs =>
    match piece? c cs with
    | none => { tokens := [], fault := some (.illegalCharacter c p.line p.column) }
    | some (piece, n) =>
      let next := p.advance (c :: cs.take n)
      match piece with
      | .gap => scanFrom next (cs.drop n)
      | .lexeme l => (scanFrom next (cs.drop n)).cons { lexeme := l, position := p }
      | .badEscape e => { tokens := [], fault := some (.unknownEscape e p.line) }
termination_by cs => cs.length
decreasing_by all_goals simp only [List.length_cons, List.length_drop]; omega

/-- Cuts a text into tokens. -/
def scan (text : String) : Scan := scanFrom .start text.toList

/-- All tokens of a text, or its first fault. -/
def tokenize (text : String) : Except SyntaxError (List Token) :=
  let s := scan text
  match s.fault with
  | some e => .error e
  | none => .ok s.tokens

end Token

end QueryBook
