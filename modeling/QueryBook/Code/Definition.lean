import QueryBook.Code.Writer
import QueryBook.Query.Basic
import QueryBook.Text.Literal

/-!
# Generated definitions

The part of the generated language that generated modules are made of. An expression tells the
arguments of the function it stands in from the names of the module around it, so that the names a
function refers to can be read off it. A definition has a name and the items that write it.
-/

namespace QueryBook

/-- An expression of generated code. -/
inductive Expr where
  /-- An argument or local variable of the function. -/
  | argument (name : String)
  /-- A definition or import of the module. -/
  | global (name : String)
  /-- A text, as a literal. -/
  | literal (text : String)
  /-- A text that needs no escape, between double quotes. -/
  | quoted (text : String)
  | field (of : Expr) (name : String)
  | call (f : Expr) (args : List Expr)
  | tuple (items : List Expr)
  /-- A mapping from names to the arguments of the same names. -/
  | mapping (names : List String)
  /-- The list of the results of `f` on the elements of a list. -/
  | each (f : Expr) (list : Expr)
  /-- The value, or none if the variable holds none. -/
  | unlessNone (name : String) (value : Expr)
deriving Repr

namespace Expr

/-- The text of a tuple; a tuple of one keeps its comma. -/
def tupleText : List String → String
  | [one] => "(" ++ one ++ ",)"
  | items => "(" ++ String.intercalate ", " items ++ ")"

/-- The text of a mapping. -/
def mappingText (names : List String) : String :=
  "\x7b" ++ String.intercalate ", " (names.map fun n => "\"" ++ n ++ "\": " ++ n) ++ "\x7d"

mutual

/-- The text of an expression. -/
def text : Expr → String
  | argument name => name
  | global name => name
  | literal text => Text.literal text
  | quoted text => "\"" ++ text ++ "\""
  | field of name => of.text ++ "." ++ name
  | call f args => f.text ++ "(" ++ String.intercalate ", " (texts args) ++ ")"
  | tuple items => tupleText (texts items)
  | mapping names => mappingText names
  | each f list => "[" ++ f.text ++ "(r) for r in " ++ list.text ++ "]"
  | unlessNone name value => "None if " ++ name ++ " is None else " ++ value.text

/-- The texts of several expressions. -/
def texts : List Expr → List String
  | [] => []
  | e :: es => e.text :: texts es

end

mutual

/-- The names of the module that an expression refers to. -/
def globals : Expr → List String
  | argument _ => []
  | global name => [name]
  | literal _ => []
  | quoted _ => []
  | field of _ => of.globals
  | call f args => f.globals ++ globalsOf args
  | tuple items => globalsOf items
  | mapping _ => []
  | each f list => f.globals ++ list.globals
  | unlessNone _ value => value.globals

/-- The names of the module that several expressions refer to. -/
def globalsOf : List Expr → List String
  | [] => []
  | e :: es => e.globals ++ globalsOf es

end

end Expr

/-- The errors that generated code tells apart. -/
inductive ErrorClass where
  /-- A statement run for its effect returned rows. -/
  | returnedRows
  /-- An error of the driver of a backend. -/
  | driver (backend : Backend)
deriving DecidableEq, Repr

/-- The name of a class of errors. -/
def ErrorClass.text : ErrorClass → String
  | returnedRows => "ExecuteReturnedRowsError"
  | driver .embedded => "sqlite3.Error"
  | driver .network => "psycopg.Error"

/-- What is done about the errors of a class. -/
structure Handler where
  error : ErrorClass
  /-- The name that the error is given. -/
  binding : Option String
  /-- What is evaluated for its effect. -/
  body : List Expr
  /-- Whether the error goes on its way then. -/
  again : Bool
deriving Repr

/-- The handler as a block. -/
def Handler.item (h : Handler) : Item :=
  let binding := h.binding.elim "" fun name => " as " ++ name
  .block ("except " ++ h.error.text ++ binding ++ ":")
    (h.body.map (fun e => .line e.text) ++ if h.again then [.line "raise"] else [])

/-- A line of a function body, or a block of lines. -/
inductive BodyLine where
  | result (value : Expr)
  | assign (name : String) (value : Expr)
  /-- Evaluates an expression for its effect. -/
  | run (value : Expr)
  /-- Leaves the function if a text is in the set that a variable holds. -/
  | leaveIf (text set : String)
  /-- Evaluates an expression for its effect. The first handler for an error takes it. -/
  | attempt (value : Expr) (handlers : List Handler)
  /-- Evaluates an expression for its effect, and another one whatever becomes of the first. -/
  | ensure (value cleanup : Expr)
  /-- Evaluates expressions for their effect while something is open under a name. -/
  | whileOpen (resource : Expr) (name : String) (body : List Expr)
deriving Repr

namespace BodyLine

/-- What writes a line. -/
def items : BodyLine → List Item
  | result value => [.line ("return " ++ value.text)]
  | assign name value => [.line (name ++ " = " ++ value.text)]
  | run value => [.line value.text]
  | leaveIf text set => [.block ("if \"" ++ text ++ "\" in " ++ set ++ ":") [.line "return"]]
  | attempt value handlers => .block "try:" [.line value.text] :: handlers.map Handler.item
  | ensure value cleanup =>
    [.block "try:" [.line value.text], .block "finally:" [.line cleanup.text]]
  | whileOpen resource name body =>
    [.block ("with " ++ resource.text ++ " as " ++ name ++ ":")
      (body.map fun e => .line e.text)]

/-- The names of the module that a line refers to. -/
def globals : BodyLine → List String
  | result value => value.globals
  | assign _ value => value.globals
  | run value => value.globals
  | leaveIf _ _ => []
  | attempt value handlers => value.globals ++ handlers.flatMap fun h => Expr.globalsOf h.body
  | ensure value cleanup => value.globals ++ cleanup.globals
  | whileOpen resource _ body => resource.globals ++ Expr.globalsOf body

end BodyLine

/-- An argument of a function, with its type hint. -/
structure Argument where
  name : String
  hint : Option String
deriving DecidableEq, Repr

/-- The text of an argument. -/
def Argument.text (a : Argument) : String :=
  match a.hint with
  | some hint => a.name ++ ": " ++ hint
  | none => a.name

/-- A function or method. -/
structure Function where
  name : String
  /-- The arguments before the parameters of the query. -/
  leading : List Argument
  /-- The parameters of the query. -/
  parameters : List Argument
  /-- The arguments behind them. -/
  trailing : List Argument
  result : String
  doc : Option String
  body : List BodyLine
deriving Repr

namespace Function

/-- All arguments, in order. -/
def arguments (f : Function) : List Argument := f.leading ++ f.parameters ++ f.trailing

/-- The first line. -/
def header (f : Function) : String :=
  let args := String.intercalate ", " (f.arguments.map Argument.text)
  "def " ++ f.name ++ "(" ++ args ++ ") -> " ++ f.result ++ ":"

/-- The function as a block. -/
def item (f : Function) : Item :=
  .block f.header (f.doc.toList.map Item.docstring ++ f.body.flatMap BodyLine.items)

/-- The names of the module that the function refers to. -/
def references (f : Function) : List String := f.body.flatMap BodyLine.globals

end Function

/-- A class: a docstring, class fields and methods. -/
structure Class where
  name : String
  bases : List Expr
  doc : String
  fields : List (String × Expr)
  methods : List Function
deriving Repr

namespace Class

/-- The first line. -/
def header (c : Class) : String :=
  let bases :=
    if c.bases.isEmpty then "" else "(" ++ String.intercalate ", " (Expr.texts c.bases) ++ ")"
  "class " ++ c.name ++ bases ++ ":"

/-- The class as a block, with an empty line before each variable and method. -/
def item (c : Class) : Item :=
  .block c.header
    (.docstring c.doc :: c.fields.flatMap (fun v => [.blank 1, .line (v.1 ++ " = " ++ v.2.text)])
      ++ c.methods.flatMap fun m => [.blank 1, m.item])

end Class

/-- A definition of a module. -/
inductive Definition where
  /-- A name for a value. -/
  | constant (name : String) (value : Expr)
  | functionDef (f : Function)
  | classDef (c : Class)
deriving Repr

namespace Definition

/-- The name that is defined. -/
def name : Definition → String
  | constant name _ => name
  | functionDef f => f.name
  | classDef c => c.name

/-- What writes the definition: functions and classes stand two lines apart. -/
def items : Definition → List Item
  | constant name value => [.line (name ++ " = " ++ value.text)]
  | functionDef f => [.blank 2, f.item]
  | classDef c => [.blank 2, c.item]

end Definition

end QueryBook
