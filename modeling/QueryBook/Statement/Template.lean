import QueryBook.Value

/-!
# Statement templates

The server numbers the parameters of a statement, `$1`, `$2`, …, while the driver wants a template
in which `%(p1)s` stands for the first parameter and `%%` for a percent sign. The template is made
segment by segment: a dollar sign and the digits behind it become a place for that parameter,
except inside a quoted string, a quoted identifier or a dollar-quoted body, and a percent sign is
doubled everywhere.

A quotation ends at a quote that is not doubled. If none comes, it ends at the first quote of its
last doubled pair, and without such a pair the opening quote is a character like any other. A
dollar-quoted body starts with a tag between two dollar signs and ends where the same comes again.
-/

namespace QueryBook.Template

/-- The rest of a quotation behind its opening quote, up to and including the closing one. -/
def quotation (quote : Char) : List Char → Option (List Char)
  | [] => none
  | c :: cs =>
    if c ≠ quote then (quotation quote cs).map (c :: ·)
    else
      match cs with
      | [] => some [quote]
      | d :: ds =>
        if d ≠ quote then some [quote]
        else
          match quotation quote ds with
          | some body => some (quote :: quote :: body)
          | none => some [quote]

/-- A character that may start a tag. -/
def isTagStart (c : Char) : Bool := c.isAlpha || c == '_'

/-- A character that may continue a tag. -/
def isTagRest (c : Char) : Bool := c.isAlphanum || c == '_'

/-- The tag at the head of a text, possibly empty. -/
def tag : List Char → List Char
  | c :: cs => if isTagStart c then (c :: cs).takeWhile isTagRest else []
  | [] => []

/-- The text before the first occurrence of a delimiter. -/
def before? (delimiter : List Char) : List Char → Option (List Char)
  | [] => if delimiter = [] then some [] else none
  | c :: cs =>
    if delimiter.isPrefixOf (c :: cs) then some []
    else (before? delimiter cs).map (c :: ·)

/-- The rest of a dollar-quoted body behind its first dollar sign, up to and including the last. -/
def dollarQuotation (cs : List Char) : Option (List Char) :=
  let name := tag cs
  match cs.drop name.length with
  | '$' :: rest =>
    let delimiter := '$' :: (name ++ ['$'])
    (before? delimiter rest).map fun body => name ++ '$' :: (body ++ delimiter)
  | _ => none

/-- A segment of a statement. -/
inductive Segment where
  | char (c : Char)
  /-- A quotation of any kind with its delimiters. -/
  | quoted (text : List Char)
  /-- A dollar sign and the digits behind it. -/
  | parameter (digits : List Char)
deriving DecidableEq, Repr

/-- The segment at the head of `c :: cs`, and how many characters of `cs` belong to it. -/
def segment (c : Char) (cs : List Char) : Segment × Nat :=
  if c = '\'' ∨ c = '"' then
    match quotation c cs with
    | some rest => (.quoted (c :: rest), rest.length)
    | none => (.char c, 0)
  else if c = '$' then
    match dollarQuotation cs with
    | some rest => (.quoted (c :: rest), rest.length)
    | none =>
      match cs.takeWhile Char.isDigit with
      | [] => (.char c, 0)
      | digits => (.parameter digits, digits.length)
  else (.char c, 0)

/-- Cuts a statement into segments. -/
def segments : List Char → List Segment
  | [] => []
  | c :: cs => (segment c cs).1 :: segments (cs.drop (segment c cs).2)
termination_by cs => cs.length
decreasing_by simp only [List.length_cons, List.length_drop]; omega

/-- A text with its percent signs doubled. -/
def doublePercent (cs : List Char) : List Char :=
  cs.flatMap fun c => if c = '%' then ['%', '%'] else [c]

/-- The template of a segment. -/
def Segment.render : Segment → List Char
  | .char c => doublePercent [c]
  | .quoted text => doublePercent text
  | .parameter digits => "%(p".toList ++ digits ++ ")s".toList

/-- The template of a statement. -/
def ofStatement (cs : List Char) : List Char := (segments cs).flatMap Segment.render

end QueryBook.Template
