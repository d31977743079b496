import QueryBook.Text.Printable

/-!
# Quoted literals

How a text, a byte string or a list of names is written as a literal of the generated language.

A literal stands between two equal quotes: apostrophes, unless the text holds an apostrophe and no
double quote. Inside, the quote in use and the backslash are escaped, tab, line feed and carriage
return have escapes of their own, printable characters stand for themselves, and every other
character is written by its code point in the shortest of the three hexadecimal forms that holds
it. So a literal is always one line of printable characters.
-/

namespace QueryBook.Text

/-- The hexadecimal digit of a number below sixteen. -/
def hexDigit (n : Nat) : Char :=
  if n < 10 then Char.ofNat ('0'.toNat + n) else Char.ofNat ('a'.toNat + (n - 10))

/-- The lowest `width` hexadecimal digits of a number. -/
def hex : Nat → Nat → List Char
  | 0, _ => []
  | width + 1, n => hex width (n / 16) ++ [hexDigit (n % 16)]

namespace Literal

/-- The escape of a character by its code point. -/
def codeEscape (n : Nat) : List Char :=
  if n < 0x100 then '\\' :: 'x' :: hex 2 n
  else if n < 0x10000 then '\\' :: 'u' :: hex 4 n
  else '\\' :: 'U' :: hex 8 n

/-- One character of a literal whose quotes are `quote`. -/
def escape (quote c : Char) : List Char :=
  if c = quote ∨ c = '\\' then ['\\', c]
  else if c = '\t' then ['\\', 't']
  else if c = '\n' then ['\\', 'n']
  else if c = '\r' then ['\\', 'r']
  else if isPrintable c then [c]
  else codeEscape c.toNat

/-- The quote that a literal of these characters uses. -/
def quoteFor (cs : List Char) : Char :=
  if '\'' ∈ cs ∧ '"' ∉ cs then '"' else '\''

/-- The literal of a text, character by character. -/
def encode (cs : List Char) : List Char :=
  quoteFor cs :: (cs.flatMap (escape (quoteFor cs)) ++ [quoteFor cs])

end Literal

/-- The literal of a text. -/
def literal (text : String) : String := .ofList (Literal.encode text.toList)

/-- The literal of a list of names: quoted, separated by commas, in square brackets. -/
def nameList (names : List String) : String :=
  "[" ++ String.intercalate ", " (names.map literal) ++ "]"

/-- One byte of a byte literal: ASCII as in a text, all else by its value. -/
def escapeByte (quote : Char) (b : UInt8) : List Char :=
  let c := Char.ofNat b.toNat
  if c = quote ∨ c = '\\' then ['\\', c]
  else if c = '\t' then ['\\', 't']
  else if c = '\n' then ['\\', 'n']
  else if c = '\r' then ['\\', 'r']
  else if 0x20 ≤ b.toNat ∧ b.toNat < 0x7f then [c]
  else '\\' :: 'x' :: hex 2 b.toNat

/-- The literal of a byte string, marked by a leading `b`. -/
def byteLiteral (bytes : List UInt8) : String :=
  let quote := Literal.quoteFor (bytes.map fun b => Char.ofNat b.toNat)
  .ofList ('b' :: quote :: (bytes.flatMap (escapeByte quote) ++ [quote]))

/-- The literal of a byte array. It differs from that of a byte string in that an apostrophe is
escaped whichever quote is in use; a double quote never is. -/
def byteArrayLiteral (bytes : List UInt8) : String :=
  let quote := Literal.quoteFor (bytes.map fun b => Char.ofNat b.toNat)
  "bytearray(" ++ .ofList ('b' :: quote :: (bytes.flatMap (escapeByte '\'') ++ [quote])) ++ ")"

end QueryBook.Text
