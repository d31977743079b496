import QueryBook.Declaration.Basic
import QueryBook.Declaration.Token

/-!
# Derivations of a query book

The grammar of a query book, written down as its derivation trees: one type for each
nonterminal, one constructor for each production. A tree holds the tokens it was derived from, so
that its `yield` is the token sequence with all positions, and two derivations of the same
sequence can be compared as trees. The declarations a tree stands for are read off it without a
look at the sequence.

    unit          = decl_list | empty
    decl_list     = decl | decl_list decl
    decl          = attributes signature | signature
    attributes    = "#" "[" attr_list "]"
    attr          = name | name "(" option_list ")"
    option        = name "=" "[" name_list "]" | name "=" "[" "]"
    signature     = name "(" param_section ")" returns "{" string "}"
    param_section = param_list | param_list "," | empty
    param         = name ":" type
    returns       = "->" "[" "(" type_list ")" "]" | "->" "[" "(" type_list "," ")" "]" | empty
    type          = name | name "[" type_list "]"

and `x_list = x | x_list "," x` for attributes, options, names, parameters and types. Those five
differ in nothing but their items, so they are one type.
-/

namespace QueryBook

namespace Grammar

/-- The token of a mark at a position. -/
def mark (m : Mark) (p : Position) : Token := { lexeme := .mark m, position := p }

/-- An identifier where it was written. -/
structure Name where
  text : String
  position : Position
deriving DecidableEq, Repr

/-- The token of an identifier. -/
def Name.token (n : Name) : Token := { lexeme := .identifier n.text, position := n.position }

/-- The line of an identifier. -/
def Name.line (n : Name) : Nat := n.position.line

/-- A string literal where it was written. -/
structure Literal where
  text : String
  position : Position
deriving DecidableEq, Repr

/-- The token of a string literal. -/
def Literal.token (l : Literal) : Token := { lexeme := .string l.text, position := l.position }

/-! ## Lists with commas between the items -/

/-- A list: `x_list = x | x_list "," x`. -/
inductive Separated (α : Type) where
  | single (item : α)
  | more (items : Separated α) (comma : Position) (item : α)
deriving Repr

namespace Separated

variable {α β : Type}

/-- The tokens of a list, given those of an item. -/
def yield (y : α → List Token) : Separated α → List Token
  | single a => y a
  | more as c a => as.yield y ++ mark .comma c :: y a

/-- The items in order, each as what it stands for. -/
def values (v : α → β) : Separated α → List β
  | single a => [v a]
  | more as _ a => as.values v ++ [v a]

end Separated

/-! ## Types -/

/-- A type: `type = name | name "[" type_list "]"`. -/
inductive TypeTree where
  | simple (name : Name)
  | generic (name : Name) (lbracket : Position) (args : Separated TypeTree) (rbracket : Position)
deriving Repr

namespace TypeTree

mutual

/-- The tokens of a type. -/
def yield : TypeTree → List Token
  | simple n => [n.token]
  | generic n l args r => n.token :: mark .lbracket l :: (yields args ++ [mark .rbracket r])

/-- The tokens of a list of types. -/
def yields : Separated TypeTree → List Token
  | .single t => t.yield
  | .more ts c t => yields ts ++ mark .comma c :: t.yield

end

mutual

/-- The type expression a tree stands for. -/
def value : TypeTree → TypeExpr
  | simple n => ⟨n.text, []⟩
  | generic n _ args _ => ⟨n.text, valuesOf args⟩

/-- The type expressions a list of trees stands for. -/
def valuesOf : Separated TypeTree → List TypeExpr
  | .single t => [t.value]
  | .more ts _ t => valuesOf ts ++ [t.value]

end

theorem yields_eq (ts : Separated TypeTree) : yields ts = ts.yield yield := by
  induction ts with
  | single t => rfl
  | more ts c t ih => rw [yields, Separated.yield, ih]

theorem valuesOf_eq (ts : Separated TypeTree) : valuesOf ts = ts.values value := by
  induction ts with
  | single t => rfl
  | more ts c t ih => rw [valuesOf, Separated.values, ih]

end TypeTree

/-! ## Attributes -/

/-- An option: `option = name "=" "[" name_list "]" | name "=" "[" "]"`. -/
inductive OptionTree where
  | full (name : Name) (equals lbracket : Position) (names : Separated Name) (rbracket : Position)
  | empty (name : Name) (equals lbracket rbracket : Position)
deriving Repr

namespace OptionTree

/-- The tokens of an option. -/
def yield : OptionTree → List Token
  | full n e l names r =>
    n.token :: mark .equals e :: mark .lbracket l ::
      (names.yield (fun m => [m.token]) ++ [mark .rbracket r])
  | empty n e l r => [n.token, mark .equals e, mark .lbracket l, mark .rbracket r]

/-- The option a tree stands for. -/
def value : OptionTree → AttributeOption
  | full n _ _ names _ => { name := n.text, values := names.values Name.text, line := n.line }
  | empty n _ _ _ => { name := n.text, values := [], line := n.line }

end OptionTree

/-- An attribute: `attr = name | name "(" option_list ")"`. -/
inductive AttributeTree where
  | bare (name : Name)
  | applied (name : Name) (lparen : Position) (options : Separated OptionTree) (rparen : Position)
deriving Repr

namespace AttributeTree

/-- The tokens of an attribute. -/
def yield : AttributeTree → List Token
  | bare n => [n.token]
  | applied n l options r =>
    n.token :: mark .lparen l :: (options.yield OptionTree.yield ++ [mark .rparen r])

/-- The attribute a tree stands for; without parentheses its options are not given. -/
def value : AttributeTree → Attribute
  | bare n => { name := n.text, line := n.line, options := none }
  | applied n _ options _ =>
    { name := n.text, line := n.line, options := some (options.values OptionTree.value) }

end AttributeTree

/-- An attribute list: `attributes = "#" "[" attr_list "]"`. -/
structure AttributesTree where
  hash : Position
  lbracket : Position
  attributes : Separated AttributeTree
  rbracket : Position
deriving Repr

namespace AttributesTree

/-- The tokens of an attribute list with its brackets. -/
def yield (as : AttributesTree) : List Token :=
  mark .hash as.hash :: mark .lbracket as.lbracket ::
    (as.attributes.yield AttributeTree.yield ++ [mark .rbracket as.rbracket])

/-- The attributes a tree stands for. -/
def values (as : AttributesTree) : List Attribute := as.attributes.values AttributeTree.value

end AttributesTree

/-! ## Signatures -/

/-- A parameter: `param = name ":" type`. -/
structure ParameterTree where
  name : Name
  colon : Position
  type : TypeTree
deriving Repr

namespace ParameterTree

/-- The tokens of a parameter. -/
def yield (p : ParameterTree) : List Token := p.name.token :: mark .colon p.colon :: p.type.yield

/-- The parameter a tree stands for. -/
def value (p : ParameterTree) : Parameter := { name := p.name.text, type := p.type.value }

end ParameterTree

/-- What stands between the parentheses: `param_section = param_list | param_list "," | empty`. -/
inductive ParametersTree where
  | list (parameters : Separated ParameterTree)
  | listComma (parameters : Separated ParameterTree) (comma : Position)
  | empty
deriving Repr

namespace ParametersTree

/-- The tokens between the parentheses of a signature. -/
def yield : ParametersTree → List Token
  | list ps => ps.yield ParameterTree.yield
  | listComma ps c => ps.yield ParameterTree.yield ++ [mark .comma c]
  | empty => []

/-- The parameters a tree stands for. -/
def values : ParametersTree → List Parameter
  | list ps => ps.values ParameterTree.value
  | listComma ps _ => ps.values ParameterTree.value
  | empty => []

end ParametersTree

/-- The outputs, possibly not given:
`returns = "->" "[" "(" type_list ")" "]" | "->" "[" "(" type_list "," ")" "]" | empty`. -/
inductive ReturnsTree where
  | list (arrow lbracket lparen : Position) (types : Separated TypeTree)
      (rparen rbracket : Position)
  | listComma (arrow lbracket lparen : Position) (types : Separated TypeTree)
      (comma rparen rbracket : Position)
  | empty
deriving Repr

namespace ReturnsTree

/-- The tokens of the outputs. -/
def yield : ReturnsTree → List Token
  | list a l p types q r =>
    mark .arrow a :: mark .lbracket l :: mark .lparen p ::
      (types.yield TypeTree.yield ++ [mark .rparen q, mark .rbracket r])
  | listComma a l p types c q r =>
    mark .arrow a :: mark .lbracket l :: mark .lparen p ::
      (types.yield TypeTree.yield ++ [mark .comma c, mark .rparen q, mark .rbracket r])
  | empty => []

/-- The output types a tree stands for. -/
def values : ReturnsTree → List TypeExpr
  | list _ _ _ types _ _ => types.values TypeTree.value
  | listComma _ _ _ types _ _ _ => types.values TypeTree.value
  | empty => []

end ReturnsTree

/-- A signature: `signature = name "(" param_section ")" returns "{" string "}"`. -/
structure SignatureTree where
  name : Name
  lparen : Position
  parameters : ParametersTree
  rparen : Position
  returns : ReturnsTree
  lbrace : Position
  statement : Literal
  rbrace : Position
deriving Repr

namespace SignatureTree

/-- The tokens of a signature. -/
def yield (s : SignatureTree) : List Token :=
  s.name.token :: mark .lparen s.lparen :: (s.parameters.yield ++ mark .rparen s.rparen ::
    (s.returns.yield ++ [mark .lbrace s.lbrace, s.statement.token, mark .rbrace s.rbrace]))

/-- The declaration a signature stands for under some attributes. -/
def declare (s : SignatureTree) (attributes : List Attribute) : Declaration :=
  { name := s.name.text, line := s.name.line, attributes
    parameters := s.parameters.values
    outputs := s.returns.values
    statement := s.statement.text }

end SignatureTree

/-! ## Books -/

/-- A declaration: `decl = attributes signature | signature`. -/
inductive DeclarationTree where
  | attributed (attributes : AttributesTree) (signature : SignatureTree)
  | bare (signature : SignatureTree)
deriving Repr

namespace DeclarationTree

/-- The tokens of a declaration. -/
def yield : DeclarationTree → List Token
  | attributed as s => as.yield ++ s.yield
  | bare s => s.yield

/-- The declaration a tree stands for. -/
def value : DeclarationTree → Declaration
  | attributed as s => s.declare as.values
  | bare s => s.declare []

end DeclarationTree

/-- Declarations: `decl_list = decl | decl_list decl`. -/
inductive DeclarationsTree where
  | single (declaration : DeclarationTree)
  | more (declarations : DeclarationsTree) (declaration : DeclarationTree)
deriving Repr

namespace DeclarationsTree

/-- The tokens of a sequence of declarations. -/
def yield : DeclarationsTree → List Token
  | single d => d.yield
  | more ds d => ds.yield ++ d.yield

/-- The declarations a tree stands for. -/
def values : DeclarationsTree → List Declaration
  | single d => [d.value]
  | more ds d => ds.values ++ [d.value]

end DeclarationsTree

/-- A book: `unit = decl_list | empty`. -/
inductive UnitTree where
  | list (declarations : DeclarationsTree)
  | empty
deriving Repr

namespace UnitTree

/-- The tokens of a book. -/
def yield : UnitTree → List Token
  | list ds => ds.yield
  | empty => []

/-- The declarations a book stands for. -/
def values : UnitTree → List Declaration
  | list ds => ds.values
  | empty => []

end UnitTree

end Grammar

end QueryBook
