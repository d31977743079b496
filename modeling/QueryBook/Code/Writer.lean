/-!
# Writing indented source text

Generated source is written line by line. A writer keeps the lines so far and the depth of the
blocks it is in; a line is indented by that depth unless it is empty. What is to be written is a
tree of items: a block writes its header and then its body one level deeper, and an extension
writes its body on a fresh writer first and then copies the lines. Both ways of nesting leave the
writer at the depth it had.
-/

namespace QueryBook

/-- Something to write. -/
inductive Item where
  | line (text : String)
  | lines (texts : List String)
  /-- So many empty lines, and none for a negative count. -/
  | blank (count : Int)
  /-- A line between tripled quotes. -/
  | docstring (text : String)
  /-- A title between two rules, with space around them. -/
  | banner (title : String)
  | block (header : String) (body : List Item)
  | extend (body : List Item)
deriving Repr

/-- The lines written so far and the depth of the blocks around the next one. -/
structure Writer where
  lines : Array String
  level : Nat
deriving Repr

namespace Writer

/-- Nothing written. -/
def empty : Writer := { lines := #[], level := 0 }

/-- Four blanks for each level. -/
def indentation (level : Nat) : String := .ofList (List.replicate (4 * level) ' ')

/-- A text as a line at some depth; the empty line has no indentation. -/
def indent (level : Nat) (text : String) : String :=
  if text.isEmpty then "" else indentation level ++ text

/-- Writes a line. -/
def line (w : Writer) (text : String) : Writer :=
  { w with lines := w.lines.push (indent w.level text) }

/-- Writes several lines. -/
def writeLines (w : Writer) (texts : List String) : Writer := texts.foldl line w

/-- Writes empty lines. -/
def blank (w : Writer) (count : Int) : Writer :=
  { w with lines := w.lines ++ Array.replicate count.toNat "" }

/-- Copies the lines of another writer, indented once more. -/
def extend (w other : Writer) : Writer := w.writeLines other.lines.toList

/-- One level deeper. -/
def deeper (w : Writer) : Writer := { w with level := w.level + 1 }

/-- One level up. -/
def higher (w : Writer) : Writer := { w with level := w.level - 1 }

/-- The rule above and below a title. -/
def rule : String := "# " ++ .ofList (List.replicate 75 '-')

/-- Writes a title between two rules. -/
def banner (w : Writer) (title : String) : Writer :=
  ((((w.blank 2).line rule).line ("# " ++ title)).line rule).blank 1

mutual

/-- Writes an item. -/
def write (w : Writer) : Item → Writer
  | .line text => w.line text
  | .lines texts => w.writeLines texts
  | .blank count => w.blank count
  | .docstring text => w.line ("\"\"\"" ++ text ++ "\"\"\"")
  | .banner title => w.banner title
  | .block header body => (writeAll (w.line header).deeper body).higher
  | .extend body => w.extend (writeAll empty body)

/-- Writes several items. -/
def writeAll (w : Writer) : List Item → Writer
  | [] => w
  | item :: rest => writeAll (w.write item) rest

end

/-- The text of a writer: its lines, without line ends behind the last, and one line end. -/
def render (w : Writer) : String :=
  let text := (String.intercalate "\n" w.lines.toList).toList
  .ofList ((text.reverse.dropWhile (· == '\n')).reverse ++ ['\n'])

end Writer

end QueryBook
