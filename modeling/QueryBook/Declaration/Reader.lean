import QueryBook.Declaration.Basic
import QueryBook.Declaration.Scanner

/-!
# Reading declarations token by token

The grammar of a query book, with the optional parts in brackets:

    book      = declaration*
    declaration = [ "#" "[" attribute ("," attribute)* "]" ]
                  name "(" [ parameter ("," parameter)* [","] ] ")"
                  [ "->" "[" "(" type ("," type)* [","] ")" "]" ]
                  "{" string "}"
    attribute = name [ "(" option ("," option)* ")" ]
    option    = name "=" "[" [ name ("," name)* ] "]"
    parameter = name ":" type
    type      = name [ "[" type ("," type)* "]" ]

Declarations are read by a machine that takes one token at a time. Its stage holds what has been
read of the declaration at hand and says which tokens may come next, and from every stage some
continuation leads to a whole book. So the first token that the machine does not take is the first
at which the tokens so far stop being the beginning of a book, and that is the one reported. Only
the types nest, and the brackets that are still open are kept in a stack.
-/

namespace QueryBook

namespace Reader

/-- A type whose bracket is still open: its name and the arguments read so far. -/
structure OpenType where
  name : String
  args : List TypeExpr
deriving DecidableEq, Repr

/-- How far a type has been read, inside the brackets of the `outer` types. -/
inductive TypeStage where
  /-- A type name must come. -/
  | start (outer : List OpenType)
  /-- A type name was read, and its own bracket may open. -/
  | named (outer : List OpenType) (name : String)
  /-- A type was closed by its bracket. -/
  | closed (outer : List OpenType) (type : TypeExpr)
deriving DecidableEq, Repr

namespace TypeStage

/-- The type that was read last and is complete as it stands, with the types around it. -/
def complete? : TypeStage → Option (List OpenType × TypeExpr)
  | start _ => none
  | named outer name => some (outer, ⟨name, []⟩)
  | closed outer type => some (outer, type)

/-- The whole type, if no bracket is open. -/
def result? (s : TypeStage) : Option TypeExpr :=
  match s.complete? with
  | some ([], type) => some type
  | _ => none

/-- A comma or closing bracket after the type read last, inside some open bracket. -/
def continue? (s : TypeStage) (m : Mark) : Option TypeStage :=
  match s.complete?, m with
  | some (o :: outer, type), .comma => some (.start (⟨o.name, o.args ++ [type]⟩ :: outer))
  | some (o :: outer, type), .rbracket => some (.closed outer ⟨o.name, o.args ++ [type]⟩)
  | _, _ => none

/-- The stage after one more token of the same type. -/
def step? : TypeStage → Lexeme → Option TypeStage
  | start outer, .identifier name => some (.named outer name)
  | named outer name, .mark .lbracket => some (.start (⟨name, []⟩ :: outer))
  | s, .mark m => s.continue? m
  | _, _ => none

end TypeStage

/-- The part of a declaration before its parameters. -/
structure Head where
  attributes : List Attribute
  name : String
  line : Nat
deriving DecidableEq, Repr

/-- The part of a declaration before its outputs. -/
structure Signature where
  head : Head
  parameters : List Parameter
deriving DecidableEq, Repr

/-- An attribute whose parentheses are open: the attributes before it, its name and line, and the
options read so far. -/
structure OpenAttribute where
  before : List Attribute
  name : String
  line : Int
  options : List AttributeOption
deriving DecidableEq, Repr

/-- The attributes up to and including one whose parentheses have just closed. -/
def OpenAttribute.close (a : OpenAttribute) : List Attribute :=
  a.before ++ [{ name := a.name, line := a.line, options := some a.options }]

/-- One option more. -/
def OpenAttribute.push (a : OpenAttribute) (o : AttributeOption) : OpenAttribute :=
  { a with options := a.options ++ [o] }

/-- How far a declaration has been read. -/
inductive Stage where
  /-- Between declarations. -/
  | ready
  /-- After the hash. -/
  | hash
  /-- An attribute name must come. -/
  | attributeStart (before : List Attribute)
  /-- After an attribute name. -/
  | attributeNamed (before : List Attribute) (name : String) (line : Int)
  /-- An option name must come. -/
  | option (attr : OpenAttribute)
  /-- After an option name. -/
  | optionNamed (attr : OpenAttribute) (name : String) (line : Int)
  /-- After the equals sign of an option. -/
  | optionEquals (attr : OpenAttribute) (name : String) (line : Int)
  /-- After the bracket that opens the values of an option. -/
  | valuesOpen (attr : OpenAttribute) (name : String) (line : Int)
  /-- After a value of an option. -/
  | valueRead (attr : OpenAttribute) (name : String) (line : Int) (values : List String)
  /-- After a comma between values of an option. -/
  | valueNext (attr : OpenAttribute) (name : String) (line : Int) (values : List String)
  /-- After an option. -/
  | optionRead (attr : OpenAttribute)
  /-- After an attribute with options. -/
  | attributeRead (attributes : List Attribute)
  /-- After the attribute list. -/
  | attributed (attributes : List Attribute)
  /-- After the query name. -/
  | named (head : Head)
  /-- Where a parameter or the end of the parameters may come. -/
  | parameters (sig : Signature)
  /-- After a parameter name. -/
  | parameterNamed (sig : Signature) (name : String)
  /-- In the type of a parameter. -/
  | parameterType (sig : Signature) (name : String) (type : TypeStage)
  /-- After the parameters. -/
  | signed (sig : Signature)
  /-- After the arrow. -/
  | arrow (sig : Signature)
  /-- After the bracket that opens the outputs. -/
  | outputsOpen (sig : Signature)
  /-- In the type of an output. -/
  | outputType (sig : Signature) (outputs : List TypeExpr) (type : TypeStage)
  /-- After a comma between outputs. -/
  | outputNext (sig : Signature) (outputs : List TypeExpr)
  /-- After the parenthesis that closes the outputs. -/
  | outputsRead (sig : Signature) (outputs : List TypeExpr)
  /-- Where the brace that opens the statement must come. -/
  | typed (sig : Signature) (outputs : List TypeExpr)
  /-- After the opening brace. -/
  | braced (sig : Signature) (outputs : List TypeExpr)
  /-- After the statement text. -/
  | stated (declaration : Declaration)
deriving DecidableEq, Repr

/-- The declarations read so far and the stage of the one at hand. -/
structure State where
  done : List Declaration
  stage : Stage
deriving DecidableEq, Repr

/-- Nothing read. -/
def State.start : State := { done := [], stage := .ready }

/-- A declaration whose statement has just been read. -/
def Signature.declare (sig : Signature) (outputs : List TypeExpr) (statement : String) :
    Declaration :=
  { name := sig.head.name, line := sig.head.line, attributes := sig.head.attributes,
    parameters := sig.parameters, outputs, statement }

/-- One parameter more. -/
def Signature.push (sig : Signature) (p : Parameter) : Signature :=
  { sig with parameters := sig.parameters ++ [p] }

/-- The stage after one more token of the same declaration, where the closing brace is left to
`State.step?`. -/
def Stage.step? (stage : Stage) (token : Token) : Option Stage :=
  let line := token.line
  match stage, token.lexeme with
  | .ready, .mark .hash => some .hash
  | .ready, .identifier name => some (.named { attributes := [], name, line })
  | .hash, .mark .lbracket => some (.attributeStart [])
  | .attributeStart before, .identifier name => some (.attributeNamed before name line)
  | .attributeNamed before name at_, .mark m =>
    match m with
    | .lparen => some (.option { before, name, line := at_, options := [] })
    | .comma => some (.attributeStart (before ++ [{ name, line := at_, options := none }]))
    | .rbracket => some (.attributed (before ++ [{ name, line := at_, options := none }]))
    | _ => none
  | .option attr, .identifier name => some (.optionNamed attr name line)
  | .optionNamed attr name at_, .mark .equals => some (.optionEquals attr name at_)
  | .optionEquals attr name at_, .mark .lbracket => some (.valuesOpen attr name at_)
  | .valuesOpen attr name at_, .identifier value => some (.valueRead attr name at_ [value])
  | .valuesOpen attr name at_, .mark .rbracket =>
    some (.optionRead (attr.push { name, values := [], line := at_ }))
  | .valueRead attr name at_ values, .mark m =>
    match m with
    | .comma => some (.valueNext attr name at_ values)
    | .rbracket => some (.optionRead (attr.push { name, values, line := at_ }))
    | _ => none
  | .valueNext attr name at_ values, .identifier value =>
    some (.valueRead attr name at_ (values ++ [value]))
  | .optionRead attr, .mark m =>
    match m with
    | .comma => some (.option attr)
    | .rparen => some (.attributeRead attr.close)
    | _ => none
  | .attributeRead attributes, .mark m =>
    match m with
    | .comma => some (.attributeStart attributes)
    | .rbracket => some (.attributed attributes)
    | _ => none
  | .attributed attributes, .identifier name => some (.named { attributes, name, line })
  | .named head, .mark .lparen => some (.parameters { head, parameters := [] })
  | .parameters sig, .identifier name => some (.parameterNamed sig name)
  | .parameters sig, .mark .rparen => some (.signed sig)
  | .parameterNamed sig name, .mark .colon => some (.parameterType sig name (.start []))
  | .parameterType sig name type, lexeme =>
    match type.step? lexeme with
    | some type' => some (.parameterType sig name type')
    | none =>
      match type.result?, lexeme with
      | some t, .mark .comma => some (.parameters (sig.push { name, type := t }))
      | some t, .mark .rparen => some (.signed (sig.push { name, type := t }))
      | _, _ => none
  | .signed sig, .mark .arrow => some (.arrow sig)
  | .signed sig, .mark .lbrace => some (.braced sig [])
  | .arrow sig, .mark .lbracket => some (.outputsOpen sig)
  | .outputsOpen sig, .mark .lparen => some (.outputType sig [] (.start []))
  | .outputType sig outputs type, lexeme =>
    match type.step? lexeme with
    | some type' => some (.outputType sig outputs type')
    | none =>
      match type.result?, lexeme with
      | some t, .mark .comma => some (.outputNext sig (outputs ++ [t]))
      | some t, .mark .rparen => some (.outputsRead sig (outputs ++ [t]))
      | _, _ => none
  | .outputNext sig outputs, .identifier name => some (.outputType sig outputs (.named [] name))
  | .outputNext sig outputs, .mark .rparen => some (.outputsRead sig outputs)
  | .outputsRead sig outputs, .mark .rbracket => some (.typed sig outputs)
  | .typed sig outputs, .mark .lbrace => some (.braced sig outputs)
  | .braced sig outputs, .string text => some (.stated (sig.declare outputs text))
  | _, _ => none

/-- The state after one more token, if the token may come next. -/
def State.step? (s : State) (token : Token) : Option State :=
  match s.stage, token.lexeme with
  | .stated d, .mark .rbrace => some { done := s.done ++ [d], stage := .ready }
  | stage, _ => (stage.step? token).map fun next => { s with stage := next }

/-- The state after all tokens, or the first token that may not come. -/
def State.run (s : State) : List Token → Except Token State
  | [] => .ok s
  | token :: tokens =>
    match s.step? token with
    | some next => next.run tokens
    | none => .error token

/-- The declarations of a whole book: the machine stands between declarations. -/
def State.result? (s : State) : Option (List Declaration) :=
  match s.stage with
  | .ready => some s.done
  | _ => none

end Reader

/-- The declarations of a text, or the leftmost fault: a token that may not come, else a fault of
the text behind its last token, else its end inside a declaration. -/
def Declaration.readAll (text : String) : Except SyntaxError (List Declaration) :=
  let s := Token.scan text
  match Reader.State.start.run s.tokens with
  | .error token => .error (.unexpected token.value token.line token.column)
  | .ok state =>
    match s.fault, state.result? with
    | some fault, _ => .error fault
    | none, some declarations => .ok declarations
    | none, none => .error .unexpectedEnd

end QueryBook
